import StreamCheck.Proofs.Circuit.Outputs

/-! Folds that slide over a stream: with each event, from the first one on that has so many before it, the fold
of the last events. This is what a window puts out, and what sums of ever later events come to. -/

namespace StreamCheck.Fold
open Smv

theorem over_concat (f : Fold) (d : Int) {vs : List Value} (hvs : vs ≠ []) (v : Value) :
    f.over d (vs ++ [v]) = f.value d (f.over d vs) v := by
  cases vs with
  | nil => exact absurd rfl hvs
  | cons u us => exact List.foldl_concat _ _ _ _

end StreamCheck.Fold

namespace StreamCheck.Network
open Smv Kind

/-- A stream carries the fold of the last events of another one, as soon as it has so many. -/
def Slides (f : Fold) (d : Int) (width : Nat) (x y : Stream) : Prop :=
  ∀ t, y.fires t = (x.drop (width - 1)).fires t ∧
    (width - 1 ≤ (x.events t).length → y.value t = f.over d (recent x (width - 1) t ++ [x.value t]))

section
variable {f : Fold} {d : Int} {width : Nat} {x y z : Stream} {t : Nat}

theorem Slides.agree (hy : Slides f d width x y) (hz : Slides f d width x z) : y.Agree z := by
  intro t
  refine ⟨(hy t).1.trans (hz t).1.symm, fun hfires => ?_⟩
  rw [(hy t).1, Stream.fires_drop, Bool.and_eq_true, decide_eq_true_eq] at hfires
  rw [(hy t).2 hfires.2, (hz t).2 hfires.2]

theorem slides_clean (f : Fold) (d : Int) (x : Stream) : Slides f d 1 x x.clean := by
  intro t
  constructor
  · rw [Nat.sub_self, Stream.fires_drop, decide_eq_true (Nat.zero_le _), Bool.and_true]
    rfl
  · intro _
    have hnone : recent x 0 t = [] := List.drop_length
    rw [Nat.sub_self, hnone]
    rfl

theorem recent_concat (hfires : x.fires t = true) (n : Nat) :
    recent x (n + 1) (t + 1) = recent x n t ++ [x.value t] := by
  rw [recent, Stream.events_succ_of_fires hfires, List.length_append, List.length_singleton,
    Nat.add_sub_add_right, List.drop_append_of_le_length (Nat.sub_le _ _)]
  rfl

theorem recent_ne_nil {n : Nat} (h : n + 1 ≤ (x.events t).length) : recent x (n + 1) t ≠ [] := by
  rw [recent, ne_eq, List.drop_eq_nil_iff]
  omega

theorem Slides.getLast?_events {n : Nat} (h : Slides f d (n + 1) x y) (t : Nat)
    (hn : n + 1 ≤ (x.events t).length) : (y.events t).getLast? = some (f.over d (recent x (n + 1) t)) := by
  induction t with
  | zero => nomatch hn
  | succ t ih =>
    obtain ⟨hfires, hvalue⟩ := h t
    rw [Nat.add_sub_cancel, Stream.fires_drop] at hfires
    rw [Nat.add_sub_cancel] at hvalue
    cases hx : x.fires t with
    | false =>
      rw [hx, Bool.false_and] at hfires
      rw [recent, Stream.events_succ_of_not_fires hx, Stream.events_succ_of_not_fires hfires]
      rw [Stream.events_succ_of_not_fires hx] at hn
      exact ih hn
    | true =>
      rw [Stream.events_succ_of_fires hx, List.length_append, List.length_singleton] at hn
      have hle : n ≤ (x.events t).length := Nat.le_of_succ_le_succ hn
      rw [hx, decide_eq_true hle, Bool.and_self] at hfires
      rw [Stream.events_succ_of_fires hfires, List.getLast?_concat, hvalue hle, recent_concat hx]

end

namespace Kind

theorem Runs.window_slides {s : Sizes} {τ : Trace} (hq : 0 < s.queue) {processor : NodeId} {f : Fold}
    {width : Nat} {hwidth : 0 < width} (h : (Kind.window processor f width hwidth).Runs s τ) :
    Slides f s.domain width (τ.input 0) (τ.output 0) :=
  h.window_output hq

end Kind

/-- A node adds the sums of some last events to the stream without as many events. -/
structure Adds (s : Sizes) (n : Nat) (x : Stream) (τ : Trace) : Prop where
  runs : (Kind.apply .addition .integer).Runs s τ
  first : Slides .addition s.domain (n + 1) x (τ.input 0)
  second : τ.input 1 = x.drop (n + 1)

namespace Adds
open Queue
variable {s : Sizes} {n : Nat} {x : Stream} {τ : Trace}

theorem oneBehind (h : Adds s n x τ) : OneBehind τ :=
  oneBehind_of_drop (funext fun t => (h.first t).1) (congrArg Stream.fires h.second)

theorem slides (h : Adds s n x τ) (hq : 0 < s.queue) : Slides .addition s.domain (n + 2) x (τ.output 0) := by
  intro t
  obtain ⟨hfires, hvalue⟩ := h.runs.addition_output hq h.oneBehind t
  rw [h.second] at hfires hvalue
  refine ⟨hfires, fun hn => ?_⟩
  rw [hvalue _ (h.first.getLast?_events t hn)]
  exact (Fold.over_concat _ _ (recent_ne_nil hn) _).symm

theorem load_le_one (h : Adds s n x τ) (hq : 0 < s.queue) {j : Nat} (hj : j < 2) (t : Nat) :
    load τ s.queue.toNat j t ≤ 1 := by
  obtain ⟨b, -, hqueues, -⟩ := h.runs
  exact load_le_one_of_oneBehind hqueues hq rfl h.oneBehind t j hj

theorem load_eq_one (h : Adds s 0 x τ) (hq : 0 < s.queue) (hx : x.fires 0 = true) :
    load τ s.queue.toNat 0 1 = 1 := by
  obtain ⟨b, -, hqueues, -⟩ := h.runs
  have hfires : (τ.input 0).fires 0 = true := by
    rw [(h.first 0).1, Stream.fires_drop, hx]
    rfl
  exact load_one_of_oneBehind hqueues hq rfl h.oneBehind hfires

end Adds
end StreamCheck.Network
