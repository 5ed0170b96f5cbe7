import Mathlib.Data.Rat.Floor
import Embedai.DatasetReads
import Embedai.ListMaps
import Embedai.SortedPages

namespace Embedai.EpisodePages

open DatasetReads SortedPages
open DatasetService (CurrentUser HttpError parseId)
open Handlers (except_map_eq_ok)
open ListMaps (exists_mapM)

structure EpisodeFilters where
  status : Option String
  minQuality : Option ℚ
  format : Option String
  page : Option ℚ
  pageSize : Option ℚ

structure EpisodeParams where
  status : Option String
  format : Option String
  minQuality : Option ℚ
  search : Option String
  limit : Option ℚ
  offset : Option ℚ

def EpisodeFilters.sizeOfPage (filters : EpisodeFilters) : ℚ := filters.pageSize.getD 12

/-- Absent and empty filters are not sent. -/
def useEpisodes (filters : EpisodeFilters) : EpisodeParams where
  status := filters.status.filter (· ≠ "")
  format := filters.format.filter (· ≠ "")
  minQuality := filters.minQuality
  search := none
  limit := some filters.sizeOfPage
  offset := some ((filters.page.getD 1 - 1) * filters.sizeOfPage)

def intParam (q : ℚ) : Option ℤ := if q.den = 1 then some q.num else none

def bindEpisodeQuery (params : EpisodeParams) : Option EpisodeQuery :=
  match intParam (params.limit.getD 50), intParam (params.offset.getD 0) with
  | some limit, some offset =>
    if h : (∀ quality ∈ params.minQuality, 0 ≤ quality ∧ quality ≤ 1) ∧ (1 ≤ limit ∧ limit ≤ 500) ∧ 0 ≤ offset then
      some ⟨params.status, params.format, params.minQuality, params.search, limit.toNat, offset.toNat, h.1, by omega⟩
    else none
  | _, _ => none

def totalPages (total : ℕ) (pageSize : ℚ) : ℤ := ⌈(total : ℚ) / pageSize⌉

def pageNumbers (total : ℕ) (pageSize : ℚ) : List ℕ := (List.range (totalPages total pageSize).toNat).map (· + 1)

structure EpisodeData where
  items : List EpisodeOut
  total : ℕ

def episodeData {τ ι : Type} : Except HttpError (Response τ ι) → Option EpisodeData
  | .ok (.episodes items total _ _) => some ⟨items, total⟩
  | _ => none

def shownItems (data : Option EpisodeData) : List EpisodeOut := data.elim [] EpisodeData.items

def shownTotal (data : Option EpisodeData) : ℕ := data.elim 0 EpisodeData.total

def notOlderRow (a b : Uuid × Episode) : Bool := notOlder a.2.createdAt b.2.createdAt

def EpisodeFilters.selects (filters : EpisodeFilters) (projectId : Uuid) (ep : Uuid × Episode) : Bool :=
  ep.2.projectId = projectId &&
    filterText filters.status (fun status => ep.2.status = status) &&
    filterText filters.format (fun format => ep.2.format = format) &&
    filters.minQuality.all (fun quality => ep.2.qualityScore.any (quality ≤ ·))

def matching (db : Database) (projectId : Uuid) (filters : EpisodeFilters) : List (Uuid × Episode) :=
  db.episodes.items.filter (filters.selects projectId)

section Pages

variable {τ ι : Type} (svc : Service τ ι) (db : Database) (user : CurrentUser)

def Fetched (filters : EpisodeFilters) (data : Option EpisodeData) : Prop :=
  match bindEpisodeQuery (useEpisodes filters) with
  | none => data = none
  | some query => ∃ answer, listEpisodes svc db user query answer ∧ episodeData answer = data

def EpisodeFilters.atPage (filters : EpisodeFilters) (page : ℕ) : EpisodeFilters :=
  { filters with page := some page }

def shownPages (filters : EpisodeFilters) (data : ℕ → Option EpisodeData) : List EpisodeOut :=
  (pageNumbers (shownTotal (data 1)) filters.sizeOfPage).flatMap fun page => shownItems (data page)

def CoversList (projectId : Uuid) (filters : EpisodeFilters) : Prop :=
  ∀ data : ℕ → Option EpisodeData, (∀ page, Fetched svc db user (filters.atPage page) (data page)) →
    ((shownPages filters data).map Except.ok).Perm ((matching db projectId filters).map episodeOut)

end Pages

structure Accepts (filters : EpisodeFilters) (size : ℕ) : Prop where
  pageSize : filters.sizeOfPage = size
  size_bounds : 1 ≤ size ∧ size ≤ 500
  minQuality_bounds : ∀ quality ∈ filters.minQuality, 0 ≤ quality ∧ quality ≤ 1

section Query

variable {filters : EpisodeFilters} {query : EpisodeQuery} {size : ℕ}

theorem intParam_eq_some {q : ℚ} {n : ℤ} : intParam q = some n ↔ q = n := by
  rw [intParam]
  constructor
  · intro h
    split_ifs at h with hden
    cases h
    exact (Rat.coe_int_num_of_den_eq_one hden).symm
  · rintro rfl
    rw [Rat.den_intCast, if_pos rfl, Rat.num_intCast]

theorem filterText_filter (parameter : Option String) (p : String → Bool) :
    filterText (parameter.filter (· ≠ "")) p = filterText parameter p := by
  cases parameter with
  | none => rfl
  | some text =>
    rw [Option.filter_some]
    split_ifs with htext
    · rfl
    · have hempty : text = "" := by
        simpa only [decide_not, Bool.not_eq_true', decide_eq_false_iff_not, not_not] using htext
      rw [hempty]
      rfl

theorem bound_query (h : bindEpisodeQuery (useEpisodes filters) = some query) :
    Accepts filters query.limit ∧ (query.offset : ℚ) = (filters.page.getD 1 - 1) * filters.sizeOfPage ∧
      ∀ ilike projectId, query.selects ilike projectId = filters.selects projectId := by
  rw [bindEpisodeQuery] at h
  split at h
  · next limit offset hlimit hoffset =>
    split_ifs at h with hbounds
    obtain ⟨hquality, hsize, hpos⟩ := hbounds
    cases h
    have hpageSize : filters.sizeOfPage = limit := intParam_eq_some.mp hlimit
    have hstart : (filters.page.getD 1 - 1) * filters.sizeOfPage = offset := intParam_eq_some.mp hoffset
    have hcast : ∀ {n : ℤ}, 0 ≤ n → ((n.toNat : ℕ) : ℚ) = n := by
      intro n hn
      rw [← Int.cast_natCast, Int.toNat_of_nonneg hn]
    refine ⟨⟨?_, by dsimp only; omega, hquality⟩, ?_, fun ilike projectId => ?_⟩
    · rw [hpageSize, hcast (by omega)]
    · rw [hstart, hcast hpos]
    · funext ep
      simp only [EpisodeQuery.selects, EpisodeFilters.selects, useEpisodes, filterText_filter]
      exact Bool.and_true _
  · cases h

theorem exists_query (h : Accepts filters size) (p : ℕ) :
    ∃ query, bindEpisodeQuery (useEpisodes (filters.atPage (p + 1))) = some query := by
  have hlimit : intParam ((useEpisodes (filters.atPage (p + 1))).limit.getD 50) = some (size : ℤ) := by
    rw [intParam_eq_some, Int.cast_natCast]
    exact h.pageSize
  have hoffset : intParam ((useEpisodes (filters.atPage (p + 1))).offset.getD 0) = some ((p * size : ℕ) : ℤ) := by
    rw [intParam_eq_some, Int.cast_natCast, Nat.cast_mul, ← h.pageSize]
    change (((p + 1 : ℕ) : ℚ) - 1) * filters.sizeOfPage = p * filters.sizeOfPage
    rw [Nat.cast_add_one, add_sub_cancel_right]
  rw [bindEpisodeQuery, hlimit, hoffset]
  have hbounds := h.size_bounds
  exact ⟨_, dif_pos ⟨h.minQuality_bounds, by omega, Int.natCast_nonneg _⟩⟩

theorem page_of_query (h : Accepts filters size) {p : ℕ}
    (hquery : bindEpisodeQuery (useEpisodes (filters.atPage (p + 1))) = some query) :
    query.limit = size ∧ query.offset = p * size := by
  obtain ⟨haccepts, hoffset, -⟩ := bound_query hquery
  have hlimit : (query.limit : ℚ) = size := haccepts.pageSize.symm.trans h.pageSize
  refine ⟨Nat.cast_inj.mp hlimit, ?_⟩
  have hstart : (query.offset : ℚ) = (((p + 1 : ℕ) : ℚ) - 1) * filters.sizeOfPage := hoffset
  rw [Nat.cast_add_one, add_sub_cancel_right, h.pageSize, ← Nat.cast_mul] at hstart
  exact Nat.cast_inj.mp hstart

end Query

section Outputs

variable {db : Database} {projectId : Uuid} {filters : EpisodeFilters}

theorem exists_episodeOut {ep : Uuid × Episode} :
    (∃ out, episodeOut ep = .ok out) ↔ ∃ fields, metadataOut ep.2.episodeMetadata = .ok fields := by
  simp only [episodeOut, except_map_eq_ok]
  constructor
  · rintro ⟨out, fields, hfields, -⟩
    exact ⟨fields, hfields⟩
  · rintro ⟨fields, hfields⟩
    exact ⟨_, fields, hfields, rfl⟩

theorem id_of_episodeOut {ep : Uuid × Episode} {out : EpisodeOut} (h : episodeOut ep = .ok out) :
    out.id = ep.1.text := by
  obtain ⟨fields, -, rfl⟩ := except_map_eq_ok.mp h
  rfl

theorem nodup_matching : (matching db projectId filters).Nodup :=
  (List.Nodup.of_map Prod.fst db.episodes.nodup).filter _

theorem nodup_map_episodeOut (hout : ∀ ep ∈ matching db projectId filters, ∃ out, episodeOut ep = .ok out) :
    ((matching db projectId filters).map episodeOut).Nodup := by
  apply List.Nodup.map_on _ nodup_matching
  intro a ha b hb hsame
  obtain ⟨out, hout⟩ := hout a ha
  have hid : a.1 = b.1 := by
    apply Uuid.text_injective
    rw [← id_of_episodeOut hout, ← id_of_episodeOut (hsame.symm.trans hout)]
  have ha' : db.episodes.get? a.1 = some a.2 := OrderedDict.mem_items.mp (List.mem_of_mem_filter ha)
  have hb' : db.episodes.get? b.1 = some b.2 := OrderedDict.mem_items.mp (List.mem_of_mem_filter hb)
  rw [hid, hb', Option.some.injEq] at ha'
  exact Prod.ext hid ha'.symm

end Outputs

section Answers

variable {τ ι : Type} {svc : Service τ ι} {db : Database} {user : CurrentUser} {projectId : Uuid}
  {filters : EpisodeFilters} {size : ℕ}

theorem newestFirst_iff {l rows : List (Uuid × Episode)} :
    NewestFirst (fun ep : Uuid × Episode => ep.2.createdAt) l rows ↔ SortedAs notOlderRow l rows :=
  ⟨fun h => ⟨h.perm, h.sorted⟩, fun h => ⟨h.perm, h.sorted⟩⟩

theorem notOlderRow_trans (a b c : Uuid × Episode) (hab : notOlderRow a b = true) (hbc : notOlderRow b c = true) :
    notOlderRow a c = true := notOlder_trans hab hbc

theorem notOlderRow_total (a b : Uuid × Episode) : (notOlderRow a b || notOlderRow b a) = true := notOlder_total _ _

def pageData (size total p : ℕ) (rows : List (Uuid × Episode)) : Option EpisodeData :=
  ((page size p rows).mapM episodeOut).toOption.map (⟨·, total⟩)

theorem fetched_page (huser : Uuid.parse user.projectId = some projectId) (h : Accepts filters size) {p : ℕ}
    {data : Option EpisodeData} :
    Fetched svc db user (filters.atPage (p + 1)) data ↔
      ∃ rows, SortedAs notOlderRow (matching db projectId filters) rows ∧
        pageData size (matching db projectId filters).length p rows = data := by
  have hproject : parseId user.projectId = .ok projectId := by rw [parseId, huser]
  obtain ⟨query, hquery⟩ := exists_query h p
  obtain ⟨hlimit, hoffset⟩ := page_of_query h hquery
  have hselects : query.selects svc.ilike projectId = filters.selects projectId := (bound_query hquery).2.2 _ _
  have hdata : ∀ rows : List (Uuid × Episode), episodeData ((((rows.drop (p * size)).take size).mapM episodeOut).map
      (fun items => (.episodes items (matching db projectId filters).length size (p * size) : Response τ ι))) =
        pageData size (matching db projectId filters).length p rows := by
    intro rows
    rw [pageData, page]
    cases ((rows.drop (p * size)).take size).mapM episodeOut <;> rfl
  simp only [Fetched, hquery, listEpisodes, hproject, hselects, hlimit, hoffset, newestFirst_iff]
  constructor
  · rintro ⟨answer, ⟨rows, hrows, rfl⟩, rfl⟩
    exact ⟨rows, hrows, (hdata rows).symm⟩
  · rintro ⟨rows, hrows, rfl⟩
    exact ⟨_, ⟨rows, hrows, rfl⟩, hdata rows⟩

theorem fetched_none {page : ℕ} {data : Option EpisodeData} (hrefused : ∀ size, ¬ Accepts filters size)
    (h : Fetched svc db user (filters.atPage page) data) : data = none := by
  rw [Fetched] at h
  split at h
  · exact h
  · next query hquery =>
    obtain ⟨hpageSize, hsize, hquality⟩ := (bound_query hquery).1
    exact absurd ⟨hpageSize, hsize, hquality⟩ (hrefused query.limit)

theorem exists_fetched (svc : Service τ ι) (db : Database) (filters : EpisodeFilters)
    (huser : Uuid.parse user.projectId = some projectId) (page : ℕ) :
    ∃ data, Fetched svc db user (filters.atPage page) data := by
  have hproject : parseId user.projectId = .ok projectId := by rw [parseId, huser]
  cases hquery : bindEpisodeQuery (useEpisodes (filters.atPage page)) with
  | none => exact ⟨none, by simp only [Fetched, hquery]⟩
  | some query =>
    obtain ⟨rows, hrows⟩ := exists_newestFirst (fun ep : Uuid × Episode => ep.2.createdAt)
      (db.episodes.items.filter (query.selects svc.ilike projectId))
    simp only [Fetched, hquery, listEpisodes, hproject]
    exact ⟨_, _, ⟨rows, hrows, rfl⟩, rfl⟩

theorem length_le_pages (hsize : 0 < size) (total : ℕ) : total ≤ (totalPages total size).toNat * size := by
  have hpos : (0 : ℚ) < size := Nat.cast_pos.mpr hsize
  have hceil : (total : ℚ) ≤ totalPages total size * size := (div_le_iff₀ hpos).mp (Int.le_ceil _)
  have hint : (total : ℤ) ≤ totalPages total size * size := by exact_mod_cast hceil
  have hle := Int.self_le_toNat (totalPages total size)
  zify
  nlinarith

def pagesOf (size total : ℕ) (rows : ℕ → List (Uuid × Episode)) : List (Uuid × Episode) :=
  (List.range (totalPages total size).toNat).flatMap fun p => page size p (rows p)

theorem map_shownPages (h : Accepts filters size)
    (hout : ∀ ep ∈ matching db projectId filters, ∃ out, episodeOut ep = .ok out)
    {rows : ℕ → List (Uuid × Episode)} (hrows : ∀ p, SortedAs notOlderRow (matching db projectId filters) (rows p))
    {data : ℕ → Option EpisodeData}
    (hdata : ∀ p, data (p + 1) = pageData size (matching db projectId filters).length p (rows p)) :
    (shownPages filters data).map Except.ok =
      (pagesOf size (matching db projectId filters).length rows).map episodeOut := by
  have hpage : ∀ p, ∃ items, data (p + 1) = some ⟨items, (matching db projectId filters).length⟩ ∧
      items.map Except.ok = (page size p (rows p)).map episodeOut := by
    intro p
    have hmem : ∀ ep ∈ page size p (rows p), ep ∈ matching db projectId filters :=
      fun ep hep => (hrows p).perm.mem_iff.mp (List.mem_of_mem_drop (List.mem_of_mem_take hep))
    obtain ⟨items, hitems, hmap⟩ := exists_mapM fun ep hep => hout ep (hmem ep hep)
    refine ⟨items, ?_, hmap⟩
    rw [hdata, pageData, hitems]
    rfl
  obtain ⟨items, hfirst, -⟩ := hpage 0
  have htotal : shownTotal (data 1) = (matching db projectId filters).length := by
    rw [hfirst]
    rfl
  rw [shownPages, htotal, h.pageSize, pageNumbers, pagesOf, List.flatMap_map, List.map_flatMap, List.map_flatMap]
  congr 1
  funext p
  obtain ⟨items, hsome, hmap⟩ := hpage p
  rw [hsome]
  exact hmap

theorem accepts_of_coversList (huser : Uuid.parse user.projectId = some projectId)
    (hcover : CoversList svc db user projectId filters) (hne : matching db projectId filters ≠ []) :
    ∃ size, Accepts filters size := by
  by_contra hnone
  have hdata : ∀ page, Fetched svc db user (filters.atPage page) none := by
    intro page
    obtain ⟨data, h⟩ := exists_fetched svc db filters huser page
    rwa [fetched_none (fun size h => hnone ⟨size, h⟩) h] at h
  have hperm := hcover (fun _ => none) hdata
  have hshown : shownPages filters (fun _ => none) = [] :=
    List.flatMap_eq_nil_iff.mpr fun _ _ => rfl
  rw [hshown] at hperm
  exact hne (List.map_eq_nil_iff.mp hperm.nil_eq.symm)

theorem exists_out_of_coversList (huser : Uuid.parse user.projectId = some projectId)
    (hcover : CoversList svc db user projectId filters) :
    ∀ ep ∈ matching db projectId filters, ∃ out, episodeOut ep = .ok out := by
  intro ep hep
  choose data hdata using exists_fetched svc db filters huser
  have hmem := (hcover data hdata).mem_iff.mpr (List.mem_map_of_mem hep)
  obtain ⟨out, -, hout⟩ := List.mem_map.mp hmem
  exact ⟨out, hout.symm⟩

theorem not_torn_of_coversList (huser : Uuid.parse user.projectId = some projectId) (h : Accepts filters size)
    (hcover : CoversList svc db user projectId filters) :
    ¬ Torn notOlderRow (matching db projectId filters) size := by
  have hout := exists_out_of_coversList huser hcover
  apply not_torn notOlderRow_trans notOlderRow_total h.size_bounds.1 (length_le_pages h.size_bounds.1 _)
  intro rows hrows
  -- the client may be answered from any orders of the pages
  obtain ⟨start, hstart⟩ := exists_fetched svc db filters huser 0
  let data : ℕ → Option EpisodeData := fun page =>
    page.casesOn start fun p => pageData size (matching db projectId filters).length p (rows p)
  have hdata : ∀ page, Fetched svc db user (filters.atPage page) (data page) := by
    intro page
    cases page with
    | zero => exact hstart
    | succ p => exact (fetched_page huser h).mpr ⟨rows p, hrows p, rfl⟩
  have hperm := hcover data hdata
  rw [map_shownPages h hout hrows fun _ => rfl] at hperm
  exact (hperm.nodup_iff.mpr (nodup_map_episodeOut hout)).of_map

theorem coversList_of_not_torn (huser : Uuid.parse user.projectId = some projectId) (h : Accepts filters size)
    (hout : ∀ ep ∈ matching db projectId filters, ∃ out, episodeOut ep = .ok out)
    (hwhole : ¬ Torn notOlderRow (matching db projectId filters) size) :
    CoversList svc db user projectId filters := by
  intro data hdata
  choose rows hrows hpages using fun p => (fetched_page huser h).mp (hdata (p + 1))
  rw [map_shownPages h hout hrows fun p => (hpages p).symm]
  apply List.Perm.map
  exact pages_perm notOlderRow_trans notOlderRow_total h.size_bounds.1 nodup_matching
    (length_le_pages h.size_bounds.1 _) hwhole hrows

theorem coversList_of_nil (huser : Uuid.parse user.projectId = some projectId)
    (hnil : matching db projectId filters = []) : CoversList svc db user projectId filters := by
  by_cases haccepts : ∃ size, Accepts filters size
  · obtain ⟨size, h⟩ := haccepts
    apply coversList_of_not_torn huser h
    · rw [hnil]
      exact fun ep hep => absurd hep List.not_mem_nil
    · rw [hnil]
      rintro ⟨ep, hep, -⟩
      exact absurd hep List.not_mem_nil
  · intro data hdata
    have hshown : shownPages filters data = [] := by
      apply List.flatMap_eq_nil_iff.mpr
      intro page _
      rw [fetched_none (fun size h => haccepts ⟨size, h⟩) (hdata page)]
      rfl
    rw [hshown, hnil]
    exact List.Perm.refl _

theorem coversList_iff (huser : Uuid.parse user.projectId = some projectId) :
    CoversList svc db user projectId filters ↔
      matching db projectId filters = [] ∨
        ∃ size, Accepts filters size ∧
          (∀ ep ∈ matching db projectId filters, ∃ fields, metadataOut ep.2.episodeMetadata = .ok fields) ∧
          ¬ Torn notOlderRow (matching db projectId filters) size := by
  constructor
  · intro hcover
    by_cases hnil : matching db projectId filters = []
    · exact .inl hnil
    · obtain ⟨size, h⟩ := accepts_of_coversList huser hcover hnil
      have hout := exists_out_of_coversList huser hcover
      exact .inr ⟨size, h, fun ep hep => exists_episodeOut.mp (hout ep hep), not_torn_of_coversList huser h hcover⟩
  · rintro (hnil | ⟨size, h, hmetadata, hwhole⟩)
    · exact coversList_of_nil huser hnil
    · exact coversList_of_not_torn huser h (fun ep hep => exists_episodeOut.mpr (hmetadata ep hep)) hwhole

def recording (filename : String) : Episode :=
  ⟨⟨1⟩, filename, "mcap", some 4096, some 2, "ready", none, .obj [], none, none, none, some 0⟩

def firstEpisode : OrderedDict Uuid Episode := OrderedDict.empty.append ⟨40⟩ (recording "left.mcap") List.not_mem_nil

def tiedState : Database where
  episodes := firstEpisode.append ⟨41⟩ (recording "right.mcap") (by decide)
  topics := OrderedDict.empty
  datasets := OrderedDict.empty
  versions := OrderedDict.empty
  exportJobs := OrderedDict.empty

def onePerPage : EpisodeFilters := ⟨none, none, none, none, some 1⟩

theorem matching_tiedState : matching tiedState ⟨1⟩ onePerPage =
    [(⟨40⟩, recording "left.mcap"), (⟨41⟩, recording "right.mcap")] := rfl

theorem coversList_iff_onePerPage :
    CoversList plainService tiedState memberOfFirst ⟨1⟩ onePerPage ↔
      matching tiedState ⟨1⟩ onePerPage = [] ∨
        ∃ size, Accepts onePerPage size ∧
          (∀ ep ∈ matching tiedState ⟨1⟩ onePerPage, ∃ fields, metadataOut ep.2.episodeMetadata = .ok fields) ∧
          ¬ Torn notOlderRow (matching tiedState ⟨1⟩ onePerPage) size :=
  coversList_iff (by decide +kernel)

theorem tied_episodes_not_covered :
    Uuid.parse memberOfFirst.projectId = some ⟨1⟩ ∧
      ¬ CoversList plainService tiedState memberOfFirst ⟨1⟩ onePerPage := by
  have huser : Uuid.parse memberOfFirst.projectId = some ⟨1⟩ := by decide +kernel
  have haccepts : Accepts onePerPage 1 :=
    ⟨Nat.cast_one.symm, ⟨Nat.le_refl 1, by omega⟩, fun _ hquality => absurd hquality (Option.not_mem_none _)⟩
  refine ⟨huser, fun hcover => not_torn_of_coversList huser haccepts hcover ?_⟩
  rw [matching_tiedState]
  exact ⟨_, List.mem_cons_self .., 1, by decide, by decide⟩

end Answers

end Embedai.EpisodePages
