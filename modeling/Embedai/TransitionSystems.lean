import Mathlib.Logic.Relation
import Mathlib.Data.List.Basic

namespace Embedai.TransitionSystems

variable {σ α : Type} {step : σ → α → Option σ}

def run (step : σ → α → Option σ) (s : σ) : List α → Option σ
  | [] => some s
  | a :: as => (step s a).bind (fun t => run step t as)

/-- Each action of the run meets the condition in the state in which it is taken. -/
def Along (step : σ → α → Option σ) (ok : σ → α → Prop) (s : σ) : List α → Prop
  | [] => True
  | a :: as => ok s a ∧ ∀ t ∈ step s a, Along step ok t as

instance decidableAlong (step : σ → α → Option σ) (ok : σ → α → Prop) [∀ s a, Decidable (ok s a)] :
    ∀ (s : σ) (as : List α), Decidable (Along step ok s as)
  | _, [] => isTrue trivial
  | s, a :: as =>
    have (t : σ) : Decidable (Along step ok t as) := decidableAlong step ok t as
    inferInstanceAs (Decidable (ok s a ∧ ∀ t ∈ step s a, Along step ok t as))

theorem run_cons {s u : σ} {a : α} {as : List α} :
    run step s (a :: as) = some u ↔ ∃ t, step s a = some t ∧ run step t as = some u := by
  simp only [run, Option.bind_eq_some_iff]

theorem run_singleton {s t : σ} {a : α} (h : step s a = some t) : run step s [a] = some t := by
  simp only [run, h, Option.bind_some]

theorem run_append {s u : σ} {as bs : List α} :
    run step s (as ++ bs) = some u ↔ ∃ t, run step s as = some t ∧ run step t bs = some u := by
  induction as generalizing s with
  | nil => simp only [List.nil_append, run, Option.some.injEq, exists_eq_left']
  | cons a as ih =>
    simp only [List.cons_append, run_cons, ih]
    constructor
    · rintro ⟨v, hv, t, ht, hu⟩
      exact ⟨t, ⟨v, hv, ht⟩, hu⟩
    · rintro ⟨t, ⟨v, hv, ht⟩, hu⟩
      exact ⟨v, hv, t, ht, hu⟩

theorem run_concat {s u : σ} {as : List α} {a : α} :
    run step s (as ++ [a]) = some u ↔ ∃ t, run step s as = some t ∧ step t a = some u := by
  simp only [run_append, run, Option.bind_fun_some]

theorem along_append {ok : σ → α → Prop} {s t : σ} {as bs : List α} (h : run step s as = some t)
    (hok : Along step ok s (as ++ bs)) : Along step ok s as ∧ Along step ok t bs := by
  induction as generalizing s with
  | nil =>
    cases h
    exact ⟨trivial, hok⟩
  | cons a as ih =>
    obtain ⟨u, hu, h⟩ := run_cons.mp h
    refine ⟨⟨hok.1, fun v hv => ?_⟩, (ih h (hok.2 u hu)).2⟩
    rw [hu] at hv
    cases hv
    exact (ih h (hok.2 u hu)).1

theorem along_of_forall {ok : σ → α → Prop} (h : ∀ s a, ok s a) (s : σ) (as : List α) : Along step ok s as := by
  induction as generalizing s with
  | nil => trivial
  | cons a as ih => exact ⟨h s a, fun t _ => ih t⟩

theorem along_of_mem {p : α → Prop} {s : σ} {as : List α} (h : ∀ a ∈ as, p a) :
    Along step (fun _ a => p a) s as := by
  induction as generalizing s with
  | nil => trivial
  | cons a as ih => exact ⟨h a (List.mem_cons_self ..), fun t _ => ih (fun b hb => h b (List.mem_cons_of_mem _ hb))⟩

theorem Along.and {p q : σ → α → Prop} {s : σ} {as : List α}
    (hp : Along step p s as) (hq : Along step q s as) :
    Along step (fun s a => p s a ∧ q s a) s as := by
  induction as generalizing s with
  | nil => trivial
  | cons a as ih => exact ⟨⟨hp.1, hq.1⟩, fun t ht => ih (hp.2 t ht) (hq.2 t ht)⟩

theorem invariant_along {ok : σ → α → Prop} (I : σ → Prop)
    (hI : ∀ s a t, I s → ok s a → step s a = some t → I t) {s t : σ} {as : List α}
    (hs : I s) (hok : Along step ok s as) (h : run step s as = some t) : I t := by
  induction as generalizing s with
  | nil =>
    cases h
    exact hs
  | cons a as ih =>
    obtain ⟨u, hu, h⟩ := run_cons.mp h
    exact ih (hI s a u hs hok.1 hu) (hok.2 u hu) h

theorem along_of_invariant {ok q : σ → α → Prop} (I : σ → Prop)
    (hI : ∀ s a t, I s → ok s a → step s a = some t → I t) (hq : ∀ s a, I s → ok s a → q s a)
    {s : σ} {as : List α} (hs : I s) (hok : Along step ok s as) : Along step q s as := by
  induction as generalizing s with
  | nil => trivial
  | cons a as ih => exact ⟨hq s a hs hok.1, fun t ht => ih (hI s a t hs hok.1 ht) (hok.2 t ht)⟩

theorem invariant_run (I : σ → Prop) (hI : ∀ s a t, I s → step s a = some t → I t) {s t : σ}
    {as : List α} (hs : I s) (h : run step s as = some t) : I t :=
  invariant_along I (fun s a t hs _ => hI s a t hs) hs
    (along_of_forall (fun _ _ => trivial) s as) h

theorem history_run (I : List α → σ → Prop) (hI : ∀ as s a t, I as s → step s a = some t → I (as ++ [a]) t)
    {s t : σ} {as : List α} (hs : I [] s) (h : run step s as = some t) : I as t := by
  induction as generalizing I s with
  | nil =>
    cases h
    exact hs
  | cons a as ih =>
    obtain ⟨u, hu, h⟩ := run_cons.mp h
    -- the rest of the run has the invariant with the first action in front
    exact ih (fun rest => I (a :: rest)) (fun rest => hI (a :: rest)) (hI [] s a u hs hu) h

theorem history_along {ok : σ → α → Prop} (I : List α → σ → Prop)
    (hI : ∀ as s a t, I as s → ok s a → step s a = some t → I (as ++ [a]) t) {s t : σ} {as : List α}
    (hs : I [] s) (hok : Along step ok s as) (h : run step s as = some t) : I as t := by
  induction as generalizing I s with
  | nil =>
    cases h
    exact hs
  | cons a as ih =>
    obtain ⟨u, hu, h⟩ := run_cons.mp h
    exact ih (fun rest => I (a :: rest)) (fun rest => hI (a :: rest)) (hI [] s a u hs hok.1 hu) (hok.2 u hu) h

theorem preorder_run (R : σ → σ → Prop) (hrefl : ∀ s, R s s) (htrans : ∀ s t u, R s t → R t u → R s u)
    (hR : ∀ s a t, step s a = some t → R s t) {s t : σ} {as : List α}
    (h : run step s as = some t) : R s t :=
  invariant_run (R s) (fun t a u ht hu => htrans s t u ht (hR t a u hu)) (hrefl s) h

theorem countP_add_rank_le (I : σ → Prop) (rank : σ → ℕ) (lowers : α → Bool)
    (hI : ∀ s a t, I s → step s a = some t → I t)
    (hrank : ∀ s a t, I s → step s a = some t → rank t + (if lowers a then 1 else 0) ≤ rank s) {s t : σ} {as : List α}
    (hs : I s) (h : run step s as = some t) : as.countP lowers + rank t ≤ rank s := by
  induction as generalizing s with
  | nil =>
    cases h
    exact Nat.le_of_eq (Nat.zero_add _)
  | cons a as ih =>
    obtain ⟨u, hu, h⟩ := run_cons.mp h
    have hfirst := hrank s a u hs hu
    have hrest := ih (hI s a u hs hu) h
    rw [List.countP_cons]
    omega

theorem iff_along {ok : σ → α → Prop} (I P : σ → Prop) (hI : ∀ s a t, I s → step s a = some t → I t)
    (hP : ∀ s a t, I s → step s a = some t → (P t ↔ P s ∧ ok s a)) {s t : σ} {as : List α}
    (hs : I s) (hp : P s) (h : run step s as = some t) : P t ↔ Along step ok s as := by
  have hback : ∀ {s t : σ} {as : List α}, I s → run step s as = some t → P t → P s := by
    intro s t as
    induction as generalizing s with
    | nil =>
      intro _ h
      cases h
      exact id
    | cons a as ih =>
      intro hs h ht
      obtain ⟨u, hu, h⟩ := run_cons.mp h
      exact ((hP s a u hs hu).mp (ih (hI s a u hs hu) h ht)).1
  induction as generalizing s with
  | nil =>
    cases h
    exact ⟨fun _ => trivial, fun _ => hp⟩
  | cons a as ih =>
    obtain ⟨u, hu, h⟩ := run_cons.mp h
    have hIu := hI s a u hs hu
    constructor
    · intro ht
      obtain ⟨-, hok⟩ := (hP s a u hs hu).mp (hback hIu h ht)
      refine ⟨hok, fun v hv => ?_⟩
      rw [hu] at hv
      cases hv
      exact (ih hIu ((hP s a u hs hu).mpr ⟨hp, hok⟩) h).mp ht
    · rintro ⟨hok, hrest⟩
      exact (ih hIu ((hP s a u hs hu).mpr ⟨hp, hok⟩) h).mpr (hrest u hu)

theorem reached_iff_along_within {ok : σ → α → Prop} {P : σ → Prop} {p : α → Prop} (I : σ → Prop)
    (hI : ∀ s a t, I s → P s → p a → ok s a → step s a = some t → I t)
    (hP : ∀ s a t, I s → P s → p a → step s a = some t → (P t ↔ ok s a)) {s u : σ} {as : List α} (hi : I s) (hs : P s)
    (hp : ∀ a ∈ as, p a) (h : run step s as = some u) :
    (∀ before t, before <+: as → run step s before = some t → P t) ↔ Along step ok s as := by
  induction as generalizing s with
  | nil =>
    refine ⟨fun _ => trivial, fun _ before t hbefore ht => ?_⟩
    rw [List.prefix_nil.mp hbefore] at ht
    cases ht
    exact hs
  | cons a as ih =>
    obtain ⟨v, hv, hrun⟩ := run_cons.mp h
    have hpa : p a := hp a (List.mem_cons_self ..)
    have hstep := hP s a v hi hs hpa hv
    have hrest : ∀ b ∈ as, p b := fun b hb => hp b (List.mem_cons_of_mem _ hb)
    constructor
    · intro hreached
      have hPv : P v := hreached [a] v (List.cons_prefix_cons.mpr ⟨rfl, List.nil_prefix⟩) (run_singleton hv)
      have hok := hstep.mp hPv
      refine ⟨hok, fun w hw => ?_⟩
      rw [hv] at hw
      cases hw
      refine (ih (hI s a v hi hs hpa hok hv) hPv hrest hrun).mp fun before t hbefore ht => ?_
      exact hreached (a :: before) t (List.cons_prefix_cons.mpr ⟨rfl, hbefore⟩) (run_cons.mpr ⟨v, hv, ht⟩)
    · rintro ⟨hok, halong⟩ before t hbefore ht
      have hPv : P v := hstep.mpr hok
      cases before with
      | nil =>
        cases ht
        exact hs
      | cons b before =>
        obtain ⟨rfl, hprefix⟩ := List.cons_prefix_cons.mp hbefore
        obtain ⟨w, hw, ht⟩ := run_cons.mp ht
        rw [hv] at hw
        cases hw
        exact (ih (hI s b v hi hs hpa hok hv) hPv hrest hrun).mpr (halong v hv) before t hprefix ht

theorem reached_iff_along {ok : σ → α → Prop} {P : σ → Prop} {p : α → Prop}
    (hP : ∀ s a t, P s → p a → step s a = some t → (P t ↔ ok s a)) {s u : σ} {as : List α} (hs : P s)
    (hp : ∀ a ∈ as, p a) (h : run step s as = some u) :
    (∀ before t, before <+: as → run step s before = some t → P t) ↔ Along step ok s as :=
  reached_iff_along_within (fun _ => True) (fun _ _ _ _ _ _ _ _ => trivial) (fun s a t _ => hP s a t) trivial hs hp h

theorem pairs_iff_along {ok : σ → α → Prop} (R : σ → σ → Prop) (hrefl : ∀ s, R s s)
    (htrans : ∀ s t u, R s t → R t u → R s u) (hR : ∀ s a t, step s a = some t → (R s t ↔ ok s a)) {s u : σ}
    {as : List α} (h : run step s as = some u) :
    (∀ before after t v, before <+: after → after <+: as → run step s before = some t → run step s after = some v →
      R t v) ↔ Along step ok s as := by
  constructor
  · intro hpairs
    clear htrans
    induction as generalizing s with
    | nil => trivial
    | cons a as ih =>
      obtain ⟨w, hw, hrun⟩ := run_cons.mp h
      have hfirst : [a] <+: a :: as := List.cons_prefix_cons.mpr ⟨rfl, List.nil_prefix⟩
      refine ⟨(hR s a w hw).mp (hpairs [] [a] s w List.nil_prefix hfirst rfl (run_singleton hw)), fun x hx => ?_⟩
      rw [hw] at hx
      cases hx
      apply ih hrun
      intro before after t v hbefore hafter ht hv
      exact hpairs (a :: before) (a :: after) t v (List.cons_prefix_cons.mpr ⟨rfl, hbefore⟩)
        (List.cons_prefix_cons.mpr ⟨rfl, hafter⟩) (run_cons.mpr ⟨w, hw, ht⟩) (run_cons.mpr ⟨w, hw, hv⟩)
  · rintro halong before after t v ⟨rest, rfl⟩ ⟨more, rfl⟩ ht hv
    obtain ⟨t', ht', hrest⟩ := run_append.mp hv
    rw [ht] at ht'
    cases ht'
    rw [List.append_assoc] at halong
    obtain ⟨-, halong⟩ := along_append ht halong
    obtain ⟨halong, -⟩ := along_append hrest halong
    exact invariant_along (R t) (fun x a y hx hok hy => htrans t x y hx ((hR x a y hy).mpr hok)) (hrefl t) halong hrest

end Embedai.TransitionSystems
