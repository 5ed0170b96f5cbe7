import Embedai.DatasetOperations
import Embedai.ExportResolution

namespace Embedai.DatasetService

open ExportWorker TransitionSystems
open ListMaps (exists_mem_mapM exists_of_mem_mapM)

def NoDangling (db : Database) : Prop :=
  ∀ id version, db.versions.get? id = some version → ∀ ref ∈ version.episodeRefs,
    ∃ episodeId ep, Uuid.parse ref.episodeId = some episodeId ∧ db.episodes.get? episodeId = some ep

def DeletesReferenced (c : Catalog) : Operation → Prop
  | .deleteEpisode episodeId user commits => commits = true ∧ ¬ c.Referenced episodeId ∧
      (∃ ep, c.db.episodes.get? episodeId = some ep ∧ Uuid.parse user.projectId = some ep.projectId) ∧
      ∃ id version ref, c.db.versions.get? id = some version ∧ ref ∈ version.episodeRefs ∧
        Uuid.parse ref.episodeId = some episodeId
  | _ => False

def DeletesKeepSamples (c : Catalog) (op : Operation) : Prop :=
  ∀ episodeId user commits, op = .deleteEpisode episodeId user commits →
    ∀ id version, c.db.versions.get? id = some version →
      resolveEpisodeRefs (serve c op).db version.episodeRefs = resolveEpisodeRefs c.db version.episodeRefs

variable {c c' : Catalog} {db : Database} {op : Operation}

theorem noDangling_append {newId : Uuid} {version : DatasetVersion} {datasetId : Uuid} {body : CreateVersionRequest}
    {hnew : newId ∉ db.versions.keys} (hdb : NoDangling db) (hsound : Sound db datasetId body version) :
    NoDangling { db with versions := db.versions.append newId version hnew } := by
  intro id found hfound ref href
  rw [OrderedDict.get?_append] at hfound
  split_ifs at hfound
  · cases hfound
    rw [hsound.refs] at href
    obtain ⟨ds, ids, -, hids, hexist, -⟩ := hsound.episodes
    obtain ⟨episodeId, hmem, hparse⟩ := exists_mem_mapM hids href
    obtain ⟨ep, hep, -⟩ := hexist episodeId hmem
    exact ⟨episodeId, ep, hparse, hep⟩
  · exact hdb id found hfound ref href

theorem noDangling_arrive {id : Uuid} {ep : Episode} {hnew : id ∉ db.episodes.keys} (hdb : NoDangling db) :
    NoDangling { db with episodes := db.episodes.append id ep hnew } := by
  intro versionId version hversion ref href
  obtain ⟨episodeId, found, hparse, hfound⟩ := hdb versionId version hversion ref href
  refine ⟨episodeId, found, hparse, ?_⟩
  rw [OrderedDict.get?_append, if_neg, hfound]
  rintro rfl
  exact hnew (OrderedDict.mem_keys.mpr ⟨found, hfound⟩)

theorem noDangling_delete_iff {episodeId : Uuid} (hc : NoDangling c.db) :
    NoDangling (c.withoutEpisode episodeId).db ↔
      ¬ ∃ id version ref, c.db.versions.get? id = some version ∧ ref ∈ version.episodeRefs ∧
        Uuid.parse ref.episodeId = some episodeId := by
  constructor
  · rintro h ⟨id, version, ref, hversion, href, hparse⟩
    obtain ⟨found, ep, hfound, hep⟩ := h id version hversion ref href
    rw [hparse, Option.some.injEq] at hfound
    subst hfound
    rw [Catalog.withoutEpisode, OrderedDict.get?_erase, if_pos rfl] at hep
    cases hep
  · intro h id version hversion ref href
    obtain ⟨found, ep, hparse, hep⟩ := hc id version hversion ref href
    refine ⟨found, ep, hparse, ?_⟩
    rw [Catalog.withoutEpisode, OrderedDict.get?_erase, if_neg, hep]
    rintro rfl
    exact h ⟨id, version, ref, hversion, href, hparse⟩

theorem serve_delete {episodeId : Uuid} {user : CurrentUser} {ep : Episode}
    (hep : c.db.episodes.get? episodeId = some ep) (hproject : Uuid.parse user.projectId = some ep.projectId)
    (hfree : ¬ c.Referenced episodeId) :
    serve c (.deleteEpisode episodeId user true) = c.withoutEpisode episodeId := by
  have hdelete := (deleteEpisode_eq_ok (u := ())).mpr ⟨ep, hep, hproject, rfl, hfree, rfl⟩
  rw [serve, hdelete]

theorem dangling_of_deletes (hc : NoDangling c.db) (h : DeletesReferenced c op) : ¬ NoDangling (serve c op).db := by
  cases op with
  | deleteEpisode episodeId user commits =>
    obtain ⟨rfl, hfree, ⟨ep, hep, hproject⟩, hreferenced⟩ := h
    rw [serve_delete hep hproject hfree, noDangling_delete_iff hc]
    exact not_not_intro hreferenced
  | createDataset user newId commits => exact h.elim
  | createVersion datasetId body user newId now commits => exact h.elim
  | patchVersion versionId commits => exact h.elim
  | arrive id ep sessionId => exact h.elim

theorem noDangling_serve (hc : NoDangling c.db) (h : ¬ DeletesReferenced c op) : NoDangling (serve c op).db := by
  have hstep := step_serve c op
  generalize serve c op = c' at hstep
  cases hstep with
  | unchanged => exact hc
  | datasetCreated ds hnew => exact hc
  | versionCreated hnew haccepted hsound => exact noDangling_append hc hsound
  | episodeDeleted hep hproject hfree =>
    rw [noDangling_delete_iff hc]
    exact fun hreferenced => h ⟨rfl, hfree, ⟨_, hep, hproject⟩, hreferenced⟩
  | arrived hnew hdb =>
    rw [hdb]
    exact noDangling_arrive hc

theorem noDangling_serve_iff (hc : NoDangling c.db) : NoDangling (serve c op).db ↔ ¬ DeletesReferenced c op :=
  ⟨fun hserve h => dangling_of_deletes hc h hserve, noDangling_serve hc⟩

theorem filter_erase {ids : List Uuid} {episodeId : Uuid} (h : episodeId ∉ ids) (episodes : OrderedDict Uuid Episode) :
    (episodes.erase episodeId).items.filter (fun p => p.1 ∈ ids) = episodes.items.filter (fun p => p.1 ∈ ids) := by
  rw [OrderedDict.erase, List.filter_filter]
  apply List.filter_congr
  intro p _
  by_cases hp : p.1 ∈ ids
  · have hne : p.1 ≠ episodeId := by
      rintro rfl
      exact h hp
    simp [hp, hne]
  · simp [hp]

theorem resolve_withoutEpisode {episodeId : Uuid} {refs : List EpisodeRefIn}
    (h : ∀ ref ∈ refs, Uuid.parse ref.episodeId ≠ some episodeId) :
    resolveEpisodeRefs (c.withoutEpisode episodeId).db refs = resolveEpisodeRefs c.db refs := by
  unfold resolveEpisodeRefs
  split
  · rfl
  · cases hids : refs.mapM (fun ref => Uuid.parse ref.episodeId) with
    | none => rfl
    | some ids =>
      have hmem : episodeId ∉ ids := by
        intro hmem
        obtain ⟨ref, href, hparse⟩ := exists_of_mem_mapM hids hmem
        exact h ref href hparse
      have hresolved : resolved (c.withoutEpisode episodeId).db ids = resolved c.db ids := by
        funext raw
        rw [resolved, resolved, Catalog.withoutEpisode, filter_erase hmem]
        rfl
      rw [Option.map_some, Option.map_some, hresolved]

theorem deletesKeepSamples (h : ¬ DeletesReferenced c op) : DeletesKeepSamples c op := by
  rintro episodeId user commits rfl id version hversion
  have hstep := step_serve c (.deleteEpisode episodeId user commits)
  generalize hserve : serve c (.deleteEpisode episodeId user commits) = c' at hstep
  cases hstep with
  | unchanged => rfl
  | episodeDeleted hep hproject hfree =>
    apply resolve_withoutEpisode
    intro ref href hparse
    exact h ⟨rfl, hfree, ⟨_, hep, hproject⟩, id, version, ref, hversion, href, hparse⟩

theorem never_dangle_iff (c c' : Catalog) (operations : List Operation) (hc : NoDangling c.db)
    (h : run next c operations = some c') :
    ((∀ before d, before <+: operations → run next c before = some d → NoDangling d.db) ∧
      Along next DeletesKeepSamples c operations) ↔
      Along next (fun d op => ¬ DeletesReferenced d op) c operations := by
  have hreached : (∀ before d, before <+: operations → run next c before = some d → NoDangling d.db) ↔
      Along next (fun d op => ¬ DeletesReferenced d op) c operations := by
    apply reached_iff_along (P := fun d => NoDangling d.db) (p := fun _ => True) _ hc (fun _ _ => trivial) h
    intro d op d' hd _ hnext
    cases hnext
    exact noDangling_serve_iff hd
  rw [hreached]
  refine ⟨fun hall => hall.1, fun hall => ⟨hall, ?_⟩⟩
  exact along_of_invariant (fun _ => True) (fun _ _ _ _ _ _ => trivial) (fun _ _ _ hop => deletesKeepSamples hop)
    trivial hall

theorem never_dangle_iff_deletedAfterwards :
    (run next emptyCatalog deletedAfterwards).isSome ∧ ∀ c, run next emptyCatalog deletedAfterwards = some c →
      (((∀ before d, before <+: deletedAfterwards → run next emptyCatalog before = some d → NoDangling d.db) ∧
        Along next DeletesKeepSamples emptyCatalog deletedAfterwards) ↔
        Along next (fun d op => ¬ DeletesReferenced d op) emptyCatalog deletedAfterwards) :=
  ⟨by decide +kernel, fun c h => never_dangle_iff emptyCatalog c deletedAfterwards (fun _ _ h => by cases h) h⟩

theorem dangling_version :
    ¬ ∀ (c c' : Catalog) (operations : List Operation), NoDangling c.db → run next c operations = some c' →
      NoDangling c'.db := by
  intro hall
  have hrun : (run next emptyCatalog deletedAfterwards).any (fun c =>
      (c.db.versions.get? ⟨4⟩).any (fun version => version.episodeRefs.map EpisodeRefIn.episodeId =
        ["00000000-0000-0000-0000-00000000000a"]) ∧ (c.db.episodes.get? ⟨10⟩).isNone) = true := by decide +kernel
  obtain ⟨c, hc, hstate⟩ := (Option.any_eq_true _ _).mp hrun
  simp only [Bool.decide_and, Bool.and_eq_true, decide_eq_true_eq] at hstate
  obtain ⟨version, hversion, hrefs⟩ := (Option.any_eq_true _ _).mp hstate.1
  have hdangling := hall emptyCatalog c deletedAfterwards (fun _ _ h => by cases h) hc ⟨4⟩ version hversion
  obtain ⟨ref, href, htext⟩ : ∃ ref ∈ version.episodeRefs, ref.episodeId = "00000000-0000-0000-0000-00000000000a" :=
    List.mem_map.mp (by rw [of_decide_eq_true hrefs]; exact List.mem_singleton_self _)
  obtain ⟨episodeId, ep, hparse, hep⟩ := hdangling ref href
  have hten : Uuid.parse "00000000-0000-0000-0000-00000000000a" = some ⟨10⟩ := by decide +kernel
  rw [htext, hten, Option.some.injEq] at hparse
  rw [← hparse, Option.isNone_iff_eq_none.mp hstate.2] at hep
  cases hep

end Embedai.DatasetService
