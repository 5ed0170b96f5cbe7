import Mathlib.Data.Finset.Card
import Mathlib.Data.Finset.Range
import Embedai.TransitionSystems
import Embedai.UploadRequests

namespace Embedai.UploadRequests

open Gateway (Call Stores UploadSession InitRequest InitResponse chunkKey chunkNumber checkReceived emptyStores)
open Handlers TransitionSystems

structure ChunkRequest where
  sessionId : String
  n : String
  body : List UInt8
  fails : Call → Bool

/-- A successful request on the session, whose id it may spell in any way that PostgreSQL reads. -/
def chunkStep (session : Uuid) (g : Stores) (r : ChunkRequest) : Option Stores :=
  if rowId r.sessionId = session.text then
    match answer (uploadChunk r.fails r.sessionId r.n r.body) g with
    | (.ok _, t) => some t
    | (.error _, _) => none
  else none

def storedChunks (g : Stores) (sessionId : String) (totalChunks : ℤ) : Finset ℕ :=
  (Finset.range totalChunks.toNat).filter (fun i => (g.objects (chunkKey sessionId i)).isSome)

/-- `sessionId` is how `Complete` spells the id: it assembles the chunks that are stored under this text. -/
def ChunkCountLaw (g : Stores) (session : Uuid) (sessionId : String) : Prop :=
  ∀ sess, g.sessions.get? session.text = some sess →
    sess.receivedChunks = (storedChunks g sessionId sess.totalChunks).card ∧
      (checkReceived sess = .ok () ↔
        ∀ i < sess.totalChunks.toNat, (g.objects (chunkKey sessionId i)).isSome)

/-- A session as `Init` creates it. -/
structure FreshSession (g : Stores) (session : Uuid) (sess : UploadSession) : Prop where
  row : g.sessions.get? session.text = some sess
  received : sess.receivedChunks = 0
  chunks : 1 ≤ sess.totalChunks
  objects : ∀ text i, rowId text = session.text → g.objects (chunkKey text i) = none

theorem freshSession_of_init {fails : Call → Bool} {jwtProjectId : String} {req : InitRequest} {episodeId : String}
    {session : Uuid} {now : ℤ} {g t : Stores} {r : InitResponse}
    (h : answer (Gateway.init fails jwtProjectId req episodeId session.text now) g = (.ok r, t))
    (hobjects : ∀ text i, rowId text = session.text → g.objects (chunkKey text i) = none) :
    ∃ sess, sess.totalChunks = r.totalChunks ∧ FreshSession t session sess := by
  obtain ⟨hb, -, rfl, he, hs, rfl⟩ := Gateway.init_eq_ok.mp h
  exact ⟨Gateway.openedSession req episodeId now, rfl, Gateway.get?_sessions_openUpload he hs, rfl,
    Gateway.totalChunks_pos (Gateway.bindInit_eq_ok.mp hb).2.1, hobjects⟩

structure Counted (session : Uuid) (first : UploadSession) (sent : List (String × ℕ)) (g : Stores) : Prop where
  row : g.sessions.get? session.text = some { first with receivedChunks := (sent.length : ℤ) }
  objects : ∀ text i, rowId text = session.text → ((g.objects (chunkKey text i)).isSome ↔ (text, i) ∈ sent)
  inRange : ∀ p ∈ sent, (p.2 : ℤ) < first.totalChunks

def numbersUnder (sessionId : String) (sent : List (String × ℕ)) : List ℕ :=
  (sent.filter (fun p => p.1 = sessionId)).map Prod.snd

variable {session : Uuid} {first sess : UploadSession} {sent : List (String × ℕ)} {g t : Stores} {r : ChunkRequest}
  {sessionId : String}

theorem counted_of_fresh (h : FreshSession g session sess) : Counted session sess [] g := by
  refine ⟨?_, ?_, fun p hp => by cases hp⟩
  · rw [h.row, Option.some.injEq]
    cases sess
    simpa using h.received
  · intro text i htext
    simp [h.objects text i htext]

theorem chunkStep_eq_some : chunkStep session g r = some t ↔ rowId r.sessionId = session.text ∧
    ∃ k, answer (uploadChunk r.fails r.sessionId r.n r.body) g = (.ok k, t) := by
  unfold chunkStep
  rcases answer (uploadChunk r.fails r.sessionId r.n r.body) g with ⟨e | k, u⟩ <;> simp

theorem atoi_of_chunkNumber {n : String} {k : ℕ} (h : chunkNumber n = .ok k) : Decimal.atoi n = some (k : ℤ) := by
  unfold chunkNumber at h
  split at h
  · rename_i m hm
    cases h
    exact hm
  · cases h

theorem eq_of_chunkKey_eq {a b : String} {m n : ℕ} (ha : rowId a = session.text) (hb : rowId b = session.text)
    (h : chunkKey a m = chunkKey b n) : (a, m) = (b, n) := by
  obtain rfl := eq_of_chunkKey (slash_not_mem_of_rowId ha) (slash_not_mem_of_rowId hb) h
  rw [Gateway.chunkKey_injective a h]

theorem counted_step (hg : Counted session first sent g) (h : chunkStep session g r = some t) :
    ∃ k : ℕ, Decimal.atoi r.n = some (k : ℤ) ∧ Counted session first (sent ++ [(r.sessionId, k)]) t := by
  obtain ⟨hrow, k, h⟩ := chunkStep_eq_some.mp h
  obtain ⟨found, haccepts, hcounts⟩ := accepts_of_uploadChunk_ok h
  have ht : t = afterChunk r.sessionId k r.body false g := by
    rw [← hcounts, ← uploadChunk_accepted haccepts, h]
  subst ht
  refine ⟨k, atoi_of_chunkNumber haccepts.number, ?_, ?_, ?_⟩
  · rw [afterChunk, if_neg Bool.false_ne_true, hrow, OrderedDict.get?_modify, if_pos rfl, hg.row, Option.map_some,
      Gateway.countChunk, List.length_append, List.length_singleton, Nat.cast_add, Nat.cast_one]
  · intro text i htext
    simp only [afterChunk]
    rw [Function.update_apply, List.mem_append, List.mem_singleton, ← hg.objects text i htext]
    split_ifs with hkey
    · exact iff_of_true rfl (Or.inr (eq_of_chunkKey_eq htext hrow hkey))
    · refine ⟨Or.inl, fun hor => hor.resolve_right fun he => hkey ?_⟩
      cases he
      rfl
  · intro p hp
    rcases List.mem_append.mp hp with hp | hp
    · exact hg.inRange p hp
    · have hsession := haccepts.session
      rw [hrow, hg.row, Option.some.injEq] at hsession
      subst hsession
      rw [List.mem_singleton.mp hp]
      exact haccepts.inRange

theorem counted_run {requests : List ChunkRequest} (hg : Counted session first sent g)
    (h : run (chunkStep session) g requests = some t) :
    ∃ new : List (String × ℕ), new.map Prod.fst = requests.map ChunkRequest.sessionId ∧
      requests.map (fun r => Decimal.atoi r.n) = new.map (fun p : String × ℕ => some (p.2 : ℤ)) ∧
      Counted session first (sent ++ new) t := by
  induction requests generalizing g sent with
  | nil =>
    cases h
    exact ⟨[], rfl, rfl, by simpa using hg⟩
  | cons r requests ih =>
    obtain ⟨u, hu, h⟩ := run_cons.mp h
    obtain ⟨k, hk, hcounted⟩ := counted_step hg hu
    obtain ⟨new, hids, hnumbers, hcounted⟩ := ih hcounted h
    refine ⟨(r.sessionId, k) :: new, by rw [List.map_cons, List.map_cons, hids], ?_, by simpa using hcounted⟩
    rw [List.map_cons, List.map_cons, hk, hnumbers]

theorem storedChunks_counted (hsession : rowId sessionId = session.text) (hg : Counted session first sent g) :
    storedChunks g sessionId first.totalChunks = (numbersUnder sessionId sent).toFinset := by
  ext i
  have hmem : i ∈ numbersUnder sessionId sent ↔ (sessionId, i) ∈ sent := by
    simp [numbersUnder]
  rw [storedChunks, Finset.mem_filter, Finset.mem_range, hg.objects sessionId i hsession, List.mem_toFinset, hmem,
    and_iff_right_iff_imp]
  intro hi
  have hrange := hg.inRange _ hi
  omega

theorem numbersUnder_of_all (h : ∀ p ∈ sent, p.1 = sessionId) : numbersUnder sessionId sent = sent.map Prod.snd := by
  rw [numbersUnder, List.filter_eq_self.mpr (fun p hp => decide_eq_true (h p hp))]

theorem checkReceived_counted (hsession : rowId sessionId = session.text) (hg : Counted session first sent g)
    (hchunks : 1 ≤ first.totalChunks) (hall : ∀ p ∈ sent, p.1 = sessionId) (hnodup : (sent.map Prod.snd).Nodup) :
    (sent.length : ℤ) = first.totalChunks ↔
      ∀ i < first.totalChunks.toNat, (g.objects (chunkKey sessionId i)).isSome := by
  have hstored := storedChunks_counted hsession hg
  rw [numbersUnder_of_all hall] at hstored
  have hsub : storedChunks g sessionId first.totalChunks ⊆ Finset.range first.totalChunks.toNat :=
    Finset.filter_subset _ _
  have hcard : (storedChunks g sessionId first.totalChunks).card = sent.length := by
    rw [hstored, List.toFinset_card_of_nodup hnodup, List.length_map]
  constructor
  · intro hlen i hi
    have heq := Finset.eq_of_subset_of_card_le hsub (by rw [Finset.card_range]; omega)
    have hmem := Finset.mem_range.mpr hi
    rw [← heq] at hmem
    exact (Finset.mem_filter.mp hmem).2
  · intro hobjects
    have heq : storedChunks g sessionId first.totalChunks = Finset.range first.totalChunks.toNat :=
      Finset.filter_true_of_mem fun i hi => hobjects i (Finset.mem_range.mp hi)
    rw [heq, Finset.card_range] at hcard
    omega

theorem law_counted (hsession : rowId sessionId = session.text) (hg : Counted session first sent g)
    (hchunks : 1 ≤ first.totalChunks) :
    ChunkCountLaw g session sessionId ↔ (∀ p ∈ sent, p.1 = sessionId) ∧ (sent.map Prod.snd).Nodup := by
  have hstored := storedChunks_counted hsession hg
  constructor
  · intro hlaw
    have hcount := (hlaw _ hg.row).1
    simp only [hstored, Nat.cast_inj] at hcount
    have hunder : (numbersUnder sessionId sent).length = (sent.filter (fun p => p.1 = sessionId)).length :=
      List.length_map ..
    have hle := List.toFinset_card_le (numbersUnder sessionId sent)
    have hlength : (sent.filter (fun p => p.1 = sessionId)).length = sent.length := by
      have hfilter := List.length_filter_le (fun p : String × ℕ => p.1 = sessionId) sent
      omega
    have hall : ∀ p ∈ sent, p.1 = sessionId := by
      intro p hp
      exact of_decide_eq_true (List.length_filter_eq_length_iff.mp hlength p hp)
    refine ⟨hall, ?_⟩
    rw [numbersUnder_of_all hall] at hcount
    apply Multiset.coe_nodup.mp
    apply Multiset.toFinset_card_eq_card_iff_nodup.mp
    rw [Multiset.coe_card, List.length_map]
    exact hcount.symm
  · rintro ⟨hall, hnodup⟩ found hfound
    rw [hg.row, Option.some.injEq] at hfound
    subst hfound
    refine ⟨?_, ?_⟩
    · simp only [hstored, numbersUnder_of_all hall, List.toFinset_card_of_nodup hnodup, List.length_map]
    · rw [Gateway.checkReceived_eq_ok]
      have hcheck := checkReceived_counted hsession hg hchunks hall hnodup
      exact hcheck

theorem nodup_map_some :
    (sent.map (fun p : String × ℕ => some (p.2 : ℤ))).Nodup ↔ (sent.map Prod.snd).Nodup := by
  have hinjective : Function.Injective (fun k : ℕ => some (k : ℤ)) :=
    fun a b h => Int.ofNat.inj (Option.some.inj h)
  rw [← List.nodup_map_iff hinjective, List.map_map]
  rfl

theorem chunkCountLaw_iff (g t : Stores) (session : Uuid) (sessionId : String) (sess : UploadSession)
    (requests : List ChunkRequest) (hsession : rowId sessionId = session.text) (hfresh : FreshSession g session sess)
    (h : run (chunkStep session) g requests = some t) :
    ChunkCountLaw t session sessionId ↔
      (∀ r ∈ requests, r.sessionId = sessionId) ∧ (requests.map (fun r => Decimal.atoi r.n)).Nodup := by
  obtain ⟨sent, hids, hnumbers, hcounted⟩ := counted_run (counted_of_fresh hfresh) h
  have hall : (∀ r ∈ requests, r.sessionId = sessionId) ↔ ∀ p ∈ sent, p.1 = sessionId := by
    rw [← List.forall_mem_map (f := ChunkRequest.sessionId) (P := (· = sessionId)), ← hids, List.forall_mem_map]
  rw [hall, hnumbers, nodup_map_some]
  exact law_counted hsession hcounted hfresh.chunks

def openedUpload : Stores :=
  (answer (Gateway.init (fun _ => false) "p" ⟨"a.mcap", 2 ^ 26 + 1, "mcap", "", ""⟩ "e" (⟨0xab⟩ : Uuid).text 0)
    emptyStores).2

def chunkOne (sessionId n : String) : ChunkRequest := ⟨sessionId, n, [1], fun _ => false⟩

theorem fresh_openedUpload :
    FreshSession openedUpload ⟨0xab⟩ ⟨"e", 2, 0, 2 ^ 26, "", .inProgress, 24 * 3600 * 10 ^ 9⟩ where
  row := by rfl
  received := rfl
  chunks := by decide
  objects := fun _ _ _ => rfl

theorem chunkCountLaw_outOfOrder :
    (run (chunkStep ⟨0xab⟩) openedUpload [chunkOne "{000000000000000000000000000000AB}" "1",
        chunkOne "{000000000000000000000000000000AB}" "00"]).isSome ∧
      ∀ t, run (chunkStep ⟨0xab⟩) openedUpload [chunkOne "{000000000000000000000000000000AB}" "1",
          chunkOne "{000000000000000000000000000000AB}" "00"] = some t →
        ChunkCountLaw t ⟨0xab⟩ "{000000000000000000000000000000AB}" := by
  refine ⟨by decide +kernel, fun t ht => ?_⟩
  apply (chunkCountLaw_iff _ t ⟨0xab⟩ _ _ _ (by decide +kernel) fresh_openedUpload ht).mpr
  refine ⟨?_, by decide +kernel⟩
  rintro r hr
  rcases List.mem_pair.mp hr with rfl | rfl <;> rfl

theorem repeated_chunk_counted :
    ¬ ∀ (g t : Stores) (session : Uuid) (sessionId : String) (sess : UploadSession) (requests : List ChunkRequest),
      rowId sessionId = session.text → FreshSession g session sess → run (chunkStep session) g requests = some t →
      ChunkCountLaw t session sessionId := by
  intro hlaw
  have hsession : rowId (⟨0xab⟩ : Uuid).text = (⟨0xab⟩ : Uuid).text := rowId_text _
  have hrun : (run (chunkStep ⟨0xab⟩) openedUpload [chunkOne (⟨0xab⟩ : Uuid).text "0",
      chunkOne (⟨0xab⟩ : Uuid).text "0"]).isSome := by decide +kernel
  obtain ⟨t, ht⟩ := Option.isSome_iff_exists.mp hrun
  obtain ⟨sent, -, hnumbers, hcounted⟩ := counted_run (counted_of_fresh fresh_openedUpload) ht
  have hnodup :=
    ((law_counted hsession hcounted (by decide)).mp (hlaw _ t _ _ _ _ hsession fresh_openedUpload ht)).2
  rw [List.nil_append, ← nodup_map_some, ← hnumbers] at hnodup
  exact absurd hnodup (by decide +kernel)

end Embedai.UploadRequests
