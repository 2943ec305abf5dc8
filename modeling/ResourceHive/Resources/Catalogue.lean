import ResourceHive.Bookings.Database
import ResourceHive.Machinery.Paging
import Mathlib.Data.Rat.Defs

/-!
# Resources/Catalogue — the lists of resources, and the catalogue of several organizations

`ResourcesService.findAll` orders an organization's resources by the time they were created and
answers one page of them, and nothing says how it orders resources of one time.  The catalogue of the
web app asks for all pages of each of the user's organizations, keeps the first of each resource, sorts
them by name and shows ten at a time, each time from answers of its own.

The pages of an organization's list are its resources exactly if no page ends between resources that
were created at one time (`list_pages_complete_iff`).  The catalogue shows a resource at most once
(`shown_once`), and where neither its requests nor its own pages end between resources that could be
ordered otherwise, its pages are the resources of the organizations (`catalogue_pages_complete`).
-/

namespace ResourceHive.Resources.Catalogue

open Bookings (Resource ResourceStatus)

/-! ## The tables -/

/-- A row of `resources`, with its `created_at`. -/
structure ListedResource where
  resource : Resource
  createdAt : Timestamp
  deriving DecidableEq

/-- A row of `resource_ratings`. -/
structure ResourceRating where
  resourceId : Uuid
  userId : Uuid
  rating : ℕ
  deriving DecidableEq

/-- The rows that a request's university sees. -/
structure Database where
  resources : Table ListedResource (Table.Unique (·.resource.id))
  ratings : Table ResourceRating (Table.Unique fun r => (r.resourceId, r.userId))

/-! ## The list of an organization -/

structure RatingSummary where
  average : ℚ
  total : ℕ
  deriving DecidableEq

/-- A resource as a list answers it. -/
structure EnrichedResource where
  resource : ListedResource
  ratingSummary : RatingSummary
  deriving DecidableEq

structure PaginatedResources where
  data : List EnrichedResource
  total : ℕ
  page : ℕ
  limit : ℕ
  totalPages : ℕ

/-- `orderBy: { createdAt: 'desc' }` -/
def newest (r : ListedResource) : ℤᵒᵈ := OrderDual.toDual r.createdAt

/-- **An execution of `findMany`**: an order for the rows it selects. -/
structure Execution where
  order : List ListedResource → List ListedResource
  answer : ∀ rows, Paging.Answer newest rows (order rows)

/-- What a list is asked for, besides its page. -/
structure Query where
  search : Option String := none
  status : Option ResourceStatus := none

/-- How PostgreSQL finds a text in a name, and the key by which `localeCompare` compares names. -/
structure Texts (κ : Type*) where
  contains : String → String → Bool
  sortKey : String → κ

section Lists

variable {κ : Type*} (texts : Texts κ) (db : Database) (query : Query)

/-- Owned by the organization, or open to it. -/
def isAccessible (organizationId : Uuid) (r : ListedResource) : Bool :=
  decide (r.resource.ownerOrganizationId = organizationId
    ∨ organizationId ∈ r.resource.allowedOrganizations)

/-- `whereClause` -/
def whereClause (organizationId : Uuid) (r : ListedResource) : Bool :=
  isAccessible organizationId r
    && (query.search.filter (· ≠ "")).all (texts.contains r.resource.name)
    && query.status.all (r.resource.status = ·)

/-- The resources that an organization's list selects. -/
def selected (organizationId : Uuid) : List ListedResource :=
  db.resources.rows.filter (whereClause texts query organizationId)

/-- `groupBy` and `aggrMap`, for one resource. -/
def ratingSummary (resourceId : Uuid) : RatingSummary :=
  let ratings := (db.ratings.rows.filter (·.resourceId = resourceId)).map (·.rating)
  { average := if ratings = [] then 0 else (ratings.sum : ℚ) / ratings.length
    total := ratings.length }

def enrich (r : ListedResource) : EnrichedResource := ⟨r, ratingSummary db r.resource.id⟩

/-- **`findAll`.** -/
def findAll (execution : Execution) (organizationId : Uuid) (page limit : ℕ) :
    PaginatedResources :=
  let skip := (page - 1) * limit
  let data := ((execution.order (selected texts db query organizationId)).drop skip).take limit
  let total := (db.resources.rows.filter (whereClause texts query organizationId)).length
  { data := data.map (enrich db)
    total, page, limit
    totalPages := Paging.pageCount total limit }

/-! ## The catalogue -/

def resourcePageSize : ℕ := 10

def aggregateResourcePageSize : ℕ := 100

/-- `CatalogueResource` -/
structure CatalogueResource where
  accessOrganizationId : Uuid
  resource : EnrichedResource
  deriving DecidableEq

def CatalogueResource.id (c : CatalogueResource) : Uuid := c.resource.resource.resource.id

def CatalogueResource.name (c : CatalogueResource) : String := c.resource.resource.resource.name

/-- `CataloguePage` -/
structure CataloguePage where
  data : List CatalogueResource
  total : ℕ
  page : ℕ
  limit : ℕ
  totalPages : ℕ

/-- The first page of an organization's list, and the remaining ones. -/
def organizationCatalogue (executions : ℕ → Execution) (organizationId : Uuid) :
    List CatalogueResource :=
  let getAccessibleResources (page : ℕ) :=
    findAll texts db query (executions page) organizationId page aggregateResourcePageSize
  let firstPage := getAccessibleResources 1
  let remainingPages := (List.range (firstPage.totalPages - 1)).map fun index =>
    getAccessibleResources (index + 2)
  (firstPage :: remainingPages).flatMap fun catalogue =>
    catalogue.data.map fun resource => ⟨organizationId, resource⟩

variable [LinearOrder κ]

/-- The resources of all organizations, by name. -/
def combined (executions : Uuid → ℕ → Execution) (organizationIds : List Uuid) :
    List CatalogueResource :=
  let organizationCatalogues := organizationIds.map fun organizationId =>
    organizationCatalogue texts db query (executions organizationId) organizationId
  let resourcesById := Paging.distinct CatalogueResource.id organizationCatalogues.flatten
  resourcesById.insertionSort fun first second =>
    texts.sortKey first.name ≤ texts.sortKey second.name

/-- **`getCombinedCatalogue`.** -/
def getCombinedCatalogue (executions : Uuid → ℕ → Execution) (organizationIds : List Uuid)
    (requestedPage : ℕ) : CataloguePage :=
  let resources := combined texts db query executions organizationIds
  let total := resources.length
  let totalPages := Paging.pageCount total resourcePageSize
  let page := min requestedPage (max totalPages 1)
  let pageStart := (page - 1) * resourcePageSize
  { data := (resources.drop pageStart).take resourcePageSize
    total, page
    limit := resourcePageSize
    totalPages }

end Lists

/-! ## The pages of one list -/

section Pages

variable {κ : Type*} {texts : Texts κ} {db : Database} {query : Query} {organizationId : Uuid}
  {n : ℕ}

/-- Newest first, and resources of one time as they come. -/
def Execution.stable : Execution where
  order rows := rows.insertionSort fun a b => newest a ≤ newest b
  answer rows := ⟨List.perm_insertionSort _ rows, List.pairwise_insertionSort _ rows⟩

/-- An execution that answers one selection in an order of choice. -/
def Execution.of {rows l : List ListedResource} (h : Paging.Answer newest rows l) : Execution where
  order rows' := if rows' = rows then l else Execution.stable.order rows'
  answer rows' := by
    split
    · next heq => exact heq ▸ h
    · exact Execution.stable.answer rows'

theorem nodup_selected : (selected texts db query organizationId).Nodup :=
  (List.Nodup.of_map _ db.resources.valid).filter _

theorem data_findAll (execution : Execution) (k : ℕ) :
    (findAll texts db query execution organizationId (k + 1) n).data.map (·.resource)
      = Paging.page (execution.order (selected texts db query organizationId)) n k := by
  have hresource : (fun r => EnrichedResource.resource r) ∘ enrich db = id := rfl
  simp [findAll, Paging.page, hresource]

/-- **The pages of an organization's list are the resources it selects**, whatever the executions,
exactly if no page ends between resources that were created at one time. -/
theorem list_pages_complete_iff (hn : 0 < n) :
    (∀ executions : ℕ → Execution,
        ((List.range (findAll texts db query (executions 0) organizationId 1 n).totalPages).flatMap
          fun k => (findAll texts db query (executions k) organizationId (k + 1) n).data.map
            (·.resource)).Perm (selected texts db query organizationId))
      ↔ ∀ k, ¬ Paging.Straddles newest (selected texts db query organizationId) (k * n) := by
  simp only [data_findAll]
  rw [← Paging.pages_complete_iff nodup_selected hn (Execution.stable.answer _)]
  constructor
  · intro hall pages hpages
    choose l hl hpage using hpages
    have hof : ∀ k, (Execution.of (hl k)).order (selected texts db query organizationId) = l k :=
      fun k => if_pos rfl
    have hperm := hall fun k => Execution.of (hl k)
    simp only [hof, ← hpage] at hperm
    exact hperm
  · intro hall executions
    exact hall _ fun k => ⟨_, (executions k).answer _, rfl⟩

end Pages

/-! ## The pages of the catalogue -/

section Combined

variable {κ : Type*} {texts : Texts κ} {db : Database} {query : Query}
  {executions : Uuid → ℕ → Execution} {organizationIds : List Uuid} {organizationId : Uuid}

/-- A resource as an organization's list brings it. -/
def catalogued (db : Database) (organizationId : Uuid) (r : ListedResource) : CatalogueResource :=
  ⟨organizationId, enrich db r⟩

/-- **What the catalogue is to show**: each resource that an organization's list selects, under the
first such organization. -/
def catalogue (texts : Texts κ) (db : Database) (query : Query) (organizationIds : List Uuid) :
    List CatalogueResource :=
  db.resources.rows.filterMap fun r =>
    (organizationIds.find? (whereClause texts query · r)).map (catalogued db · r)

theorem catalogued_data_findAll (execution : Execution) (n k : ℕ) :
    ((findAll texts db query execution organizationId (k + 1) n).data.map fun resource =>
        (⟨organizationId, resource⟩ : CatalogueResource))
      = (Paging.page (execution.order (selected texts db query organizationId)) n k).map
          (catalogued db organizationId) := by
  rw [findAll, List.map_map]
  rfl

/-- The pages that are fetched of an organization's list. -/
theorem organizationCatalogue_eq (es : ℕ → Execution) :
    organizationCatalogue texts db query es organizationId
      = ((List.range (Paging.pageCount (selected texts db query organizationId).length
            aggregateResourcePageSize)).flatMap fun k =>
          Paging.page ((es (k + 1)).order (selected texts db query organizationId))
            aggregateResourcePageSize k).map (catalogued db organizationId) := by
  have hfirst := @catalogued_data_findAll κ texts db query organizationId (es 1)
    aggregateResourcePageSize 0
  have htotal : (findAll texts db query (es 1) organizationId 1 aggregateResourcePageSize).totalPages
      = Paging.pageCount (selected texts db query organizationId).length
          aggregateResourcePageSize := rfl
  rw [organizationCatalogue, List.flatMap_cons, List.flatMap_map, hfirst, htotal]
  simp only [catalogued_data_findAll]
  generalize hcount : Paging.pageCount (selected texts db query organizationId).length
    aggregateResourcePageSize = count
  cases count with
  | zero =>
    -- The list is empty, and so is the page that is asked for all the same.
    have hlen := Paging.le_pageCount_mul (n := aggregateResourcePageSize) (by decide)
      (selected texts db query organizationId).length
    rw [hcount, Nat.zero_mul, Nat.le_zero, ← (es 1).answer _ |>.perm.length_eq] at hlen
    rw [List.length_eq_zero_iff.mp hlen]
    rfl
  | succ count =>
    rw [List.range_succ_eq_map, List.flatMap_cons, List.map_append, List.flatMap_map,
      List.map_flatMap]
    rfl

/-- Where its pages end between resources of different times, an organization's list comes whole and
newest first. -/
theorem answer_organizationCatalogue (es : ℕ → Execution)
    (hpages : ∀ k, ¬ Paging.Straddles newest (selected texts db query organizationId)
      (k * aggregateResourcePageSize)) :
    ∃ l, Paging.Answer newest (selected texts db query organizationId) l ∧
      organizationCatalogue texts db query es organizationId
        = l.map (catalogued db organizationId) :=
  ⟨_, Paging.Fetched.answer (fun k => ⟨_, (es (k + 1)).answer _, rfl⟩) (by decide) hpages
    (Execution.stable.answer _), organizationCatalogue_eq es⟩

theorem mem_organizationCatalogue {es : ℕ → Execution} {c : CatalogueResource}
    (hc : c ∈ organizationCatalogue texts db query es organizationId) :
    ∃ r ∈ db.resources.rows, whereClause texts query organizationId r
      ∧ c = catalogued db organizationId r := by
  rw [organizationCatalogue_eq] at hc
  obtain ⟨r, hr, rfl⟩ := List.mem_map.mp hc
  obtain ⟨k, -, hr⟩ := List.mem_flatMap.mp hr
  have hselected := ((es (k + 1)).answer _).perm.mem_iff.mp
    (List.mem_of_mem_drop (List.mem_of_mem_take hr))
  exact ⟨r, List.mem_of_mem_filter hselected, List.of_mem_filter hselected, rfl⟩

theorem mem_catalogue {c : CatalogueResource} :
    c ∈ catalogue texts db query organizationIds ↔ ∃ r ∈ db.resources.rows, ∃ o,
      organizationIds.find? (whereClause texts query · r) = some o ∧ c = catalogued db o r := by
  simp only [catalogue, List.mem_filterMap, Option.map_eq_some_iff]
  refine exists_congr fun r => and_congr_right fun _ => exists_congr fun o => ?_
  rw [eq_comm (a := c)]

/-- The first row under each id is the one that the first list brings. -/
theorem mem_distinct_flatMap {lists : Uuid → List CatalogueResource} {c : CatalogueResource}
    (hlists : ∀ o ∈ organizationIds, ∀ c, c ∈ lists o ↔
      ∃ r ∈ db.resources.rows, whereClause texts query o r ∧ c = catalogued db o r) :
    c ∈ Paging.distinct CatalogueResource.id (organizationIds.flatMap lists)
      ↔ c ∈ catalogue texts db query organizationIds := by
  rw [Paging.mem_distinct, List.find?_flatMap, mem_catalogue, List.findSome?_eq_some_iff]
  constructor
  · rintro ⟨before, o, after, rfl, hfound, hbefore⟩
    obtain ⟨r, hr, hwhere, rfl⟩ := (hlists o (by simp) c).mp (List.mem_of_find?_eq_some hfound)
    refine ⟨r, hr, o, List.find?_eq_some_iff_append.mpr ⟨hwhere, before, after, rfl, ?_⟩, rfl⟩
    intro o' ho'
    have hnone := List.find?_eq_none.mp (hbefore o' ho') (catalogued db o' r)
    by_contra hsel
    have hsel' : whereClause texts query o' r = true := by simpa using hsel
    exact hnone ((hlists o' (List.mem_append_left _ ho') _).mpr ⟨r, hr, hsel', rfl⟩)
      (decide_eq_true rfl)
  · rintro ⟨r, hr, o, hfind, rfl⟩
    obtain ⟨hwhere, before, after, rfl, hbefore⟩ := List.find?_eq_some_iff_append.mp hfind
    -- A list brings one resource of this id at most, this one.
    have hone : ∀ o' ∈ before ++ o :: after, ∀ c ∈ lists o',
        c.id = r.resource.id → whereClause texts query o' r ∧ c = catalogued db o' r := by
      intro o' ho' c hc hid
      obtain ⟨r', hr', hwhere', rfl⟩ := (hlists o' ho' c).mp hc
      obtain rfl := db.resources.valid.eq hr' hr hid
      exact ⟨hwhere', rfl⟩
    refine ⟨before, o, after, rfl, ?_, fun o' ho' => ?_⟩
    · have hmem := (hlists o (by simp) _).mpr ⟨r, hr, hwhere, rfl⟩
      obtain ⟨c, hc⟩ : ∃ c, (lists o).find?
          (fun x => decide (x.id = (catalogued db o r).id)) = some c :=
        Option.isSome_iff_exists.mp (List.find?_isSome.mpr ⟨_, hmem, decide_eq_true rfl⟩)
      have hid := List.find?_some hc
      rw [hc, (hone o (by simp) c (List.mem_of_find?_eq_some hc) (of_decide_eq_true hid)).2]
    · refine List.find?_eq_none.mpr fun c hc hid => ?_
      have hwhere' := (hone o' (List.mem_append_left _ ho') c hc (of_decide_eq_true hid)).1
      simpa [hwhere'] using hbefore o' ho'

theorem nodup_catalogue : (catalogue texts db query organizationIds).Nodup := by
  refine List.Nodup.filterMap (fun r r' c hc hc' => ?_) (List.Nodup.of_map _ db.resources.valid)
  obtain ⟨o, -, rfl⟩ := Option.map_eq_some_iff.mp hc
  obtain ⟨o', -, h⟩ := Option.map_eq_some_iff.mp hc'
  exact congrArg (fun c => c.resource.resource) h.symm

/-- The organizations in their order, and in each the newest resources first. -/
def arrival (organizationIds : List Uuid) : CatalogueResource → Lex (ℕ × ℤᵒᵈ) :=
  Paging.lexKey (fun c => organizationIds.idxOf c.accessOrganizationId)
    fun c => newest c.resource.resource

/-- In that case the catalogue arrives whole, organization by organization. -/
theorem answer_distinct (hdistinct : organizationIds.Nodup)
    (hlists : ∀ o ∈ organizationIds, ∀ k,
      ¬ Paging.Straddles newest (selected texts db query o) (k * aggregateResourcePageSize)) :
    Paging.Answer (arrival organizationIds) (catalogue texts db query organizationIds)
      (Paging.distinct CatalogueResource.id (organizationIds.map fun o =>
        organizationCatalogue texts db query (executions o) o).flatten) := by
  have hanswer := fun o ho => answer_organizationCatalogue (executions o) (hlists o ho)
  rw [← List.flatMap_def]
  constructor
  · refine (List.perm_ext_iff_of_nodup (.of_map _ (Paging.nodup_map_distinct _))
      nodup_catalogue).mpr fun c => mem_distinct_flatMap fun o ho c => ?_
    obtain ⟨l, hl, hcat⟩ := hanswer o ho
    rw [hcat, List.mem_map]
    simp only [hl.perm.mem_iff, selected, List.mem_filter, and_assoc, eq_comm (a := c)]
  · refine List.Pairwise.sublist (Paging.distinct_sublist _)
      (List.pairwise_flatMap.mpr ⟨fun o ho => ?_, ?_⟩)
    · obtain ⟨l, hl, hcat⟩ := hanswer o ho
      rw [hcat, List.pairwise_map]
      refine hl.sorted.imp fun {a b} h => ?_
      have hpair : (organizationIds.idxOf o, newest a) ≤ (organizationIds.idxOf o, newest b) :=
        ⟨le_refl _, h⟩
      exact Prod.Lex.toLex_mono hpair
    · refine List.pairwise_iff_getElem.mpr fun i j hi hj hij a ha b hb => ?_
      obtain ⟨r, -, -, rfl⟩ := mem_organizationCatalogue ha
      obtain ⟨r', -, -, rfl⟩ := mem_organizationCatalogue hb
      refine le_of_lt (Prod.Lex.toLex_lt_toLex.mpr (.inl ?_))
      simpa only [catalogued, hdistinct.idxOf_getElem] using hij

variable [LinearOrder κ]

/-- The names, and the resources of one name as they arrive. -/
def position (texts : Texts κ) (organizationIds : List Uuid) :
    CatalogueResource → Lex (κ × Lex (ℕ × ℤᵒᵈ)) :=
  Paging.lexKey (fun c => texts.sortKey c.name) (arrival organizationIds)

/-- **The catalogue shows a resource at most once**, and one that an organization's list selects. -/
theorem shown_once (requestedPage : ℕ) :
    let shown := (getCombinedCatalogue texts db query executions organizationIds requestedPage).data
    (shown.map CatalogueResource.id).Nodup ∧ ∀ c ∈ shown, c.accessOrganizationId ∈ organizationIds ∧
      ∃ r ∈ selected texts db query c.accessOrganizationId,
        c = catalogued db c.accessOrganizationId r := by
  have hperm := List.perm_insertionSort (fun first second : CatalogueResource =>
    texts.sortKey first.name ≤ texts.sortKey second.name)
    (Paging.distinct CatalogueResource.id (organizationIds.map fun o =>
      organizationCatalogue texts db query (executions o) o).flatten)
  have hpage : (getCombinedCatalogue texts db query executions organizationIds
      requestedPage).data.Sublist (combined texts db query executions organizationIds) :=
    (List.take_sublist _ _).trans (List.drop_sublist _ _)
  refine ⟨?_, fun c hc => ?_⟩
  · refine (hpage.map _).nodup ?_
    exact (hperm.map _).nodup_iff.mpr (Paging.nodup_map_distinct _)
  · have hmem := (Paging.distinct_sublist _).subset (hperm.mem_iff.mp (hpage.subset hc))
    obtain ⟨_, hl, hcl⟩ := List.mem_flatten.mp hmem
    obtain ⟨o, ho, rfl⟩ := List.mem_map.mp hl
    obtain ⟨r, hr, hwhere, rfl⟩ := mem_organizationCatalogue hcl
    exact ⟨ho, r, List.mem_filter.mpr ⟨hr, hwhere⟩, rfl⟩

/-- Sorted by name, the catalogue is the same up to resources that arrive in no fixed order. -/
theorem answer_combined (hdistinct : organizationIds.Nodup)
    (hlists : ∀ o ∈ organizationIds, ∀ k,
      ¬ Paging.Straddles newest (selected texts db query o) (k * aggregateResourcePageSize)) :
    Paging.Answer (position texts organizationIds) (catalogue texts db query organizationIds)
      (combined texts db query executions organizationIds) :=
  (answer_distinct hdistinct hlists).insertionSort

/-- **The pages of the catalogue are the resources of the organizations**, each once and by name,
although each page is of a catalogue that is fetched for it: where no page of the lists ends between
resources of one time, and none of the catalogue between resources of one name, of one organization
and of one time. -/
theorem catalogue_pages_complete (hdistinct : organizationIds.Nodup)
    (hlists : ∀ o ∈ organizationIds, ∀ k,
      ¬ Paging.Straddles newest (selected texts db query o) (k * aggregateResourcePageSize))
    (hpages : ∀ k, ¬ Paging.Straddles (position texts organizationIds)
      (catalogue texts db query organizationIds) (k * resourcePageSize))
    (openings : ℕ → Uuid → ℕ → Execution) :
    let totalPages :=
      (getCombinedCatalogue texts db query (openings 0) organizationIds 1).totalPages
    Paging.Answer (position texts organizationIds) (catalogue texts db query organizationIds)
      ((List.range totalPages).flatMap fun k =>
        (getCombinedCatalogue texts db query (openings k) organizationIds (k + 1)).data) := by
  have hanswer : ∀ k, Paging.Answer (position texts organizationIds)
      (catalogue texts db query organizationIds)
      (combined texts db query (openings k) organizationIds) :=
    fun _ => answer_combined hdistinct hlists
  have hcount : ∀ k, (combined texts db query (openings k) organizationIds).length
      = (catalogue texts db query organizationIds).length := fun k => (hanswer k).perm.length_eq
  have hpaged : Paging.Fetched (position texts organizationIds)
      (catalogue texts db query organizationIds) resourcePageSize fun k =>
        Paging.page (combined texts db query (openings k) organizationIds) resourcePageSize k :=
    fun k => ⟨_, hanswer k, rfl⟩
  have hfetched := hpaged.answer (by decide) hpages (hanswer 0)
  simp only [getCombinedCatalogue, hcount]
  convert hfetched using 1
  refine List.flatMap_congr fun k hk => ?_
  have hk := List.mem_range.mp hk
  rw [Paging.page, Nat.min_eq_left (by omega), Nat.add_sub_cancel]

end Combined

/-! ## A catalogue of two pages -/

section Campus

/-- Twelve resources of two organizations, created two at a time. -/
def campusResource (i : ℕ) : ListedResource where
  resource :=
    { id := i + 1, name := if i < 4 then "Lab" else "Studio", ownerOrganizationId := 2,
      rootOrganizationId := 1, status := .active, pointCost := 5, cancellationNoticeMinutes := 60,
      allowedOrganizations := if i < 6 then [2, 3] else [2] }
  createdAt := (i / 2 : ℕ)

def campus : Database where
  resources := ⟨(List.range 12).map campusResource, by decide⟩
  ratings := ⟨[⟨1, 7, 4⟩, ⟨1, 8, 5⟩], by decide⟩

/-- On these names, by their length. -/
def campusTexts : Texts ℕ where
  contains name search := decide (search = name)
  sortKey := String.length

theorem list_pages_complete_iff_on_campus :
    (∀ executions : ℕ → Execution,
        ((List.range (findAll campusTexts campus {} (executions 0) 2 1 5).totalPages).flatMap
          fun k => (findAll campusTexts campus {} (executions k) 2 (k + 1) 5).data.map
            (·.resource)).Perm (selected campusTexts campus {} 2))
      ↔ ∀ k, ¬ Paging.Straddles newest (selected campusTexts campus {} 2) (k * 5) :=
  list_pages_complete_iff (by decide)

/-- Their pages of five end between resources of one time. -/
example : Paging.Straddles newest (selected campusTexts campus {} 2) 5 := by decide

theorem catalogue_pages_complete_on_campus :
    let totalPages := (getCombinedCatalogue campusTexts campus {} (fun _ _ => Execution.stable)
      [3, 2] 1).totalPages
    Paging.Answer (position campusTexts [3, 2]) (catalogue campusTexts campus {} [3, 2])
      ((List.range totalPages).flatMap fun k =>
        (getCombinedCatalogue campusTexts campus {} (fun _ _ => Execution.stable)
          [3, 2] (k + 1)).data) :=
  catalogue_pages_complete (by decide)
    (fun o ho => Paging.forall_not_straddles (by decide) (by revert o; decide))
    (Paging.forall_not_straddles (by decide) (by decide)) fun _ _ _ => Execution.stable

end Campus

end ResourceHive.Resources.Catalogue
