import Mathlib.Data.Nat.Count
import StreamCheck.Proofs.Circuit.Bracketing
import StreamCheck.Proofs.Circuit.Runs
import StreamCheck.Proofs.Circuit.Sliding

/-! Windows over arrivals that are numbered by their ranks: a window puts out, with each arrival that fills it,
the fold of the last arrivals in the order of their ranks, wrapped around the domain after each step. -/

namespace StreamCheck.Fold
open Smv

/-- The fold of two numbers, wrapped around the domain `0..d-1`. -/
def modulo (f : Fold) (d a b : Int) : Int :=
  match f with
  | addition => (a + b) % d
  | multiplication => (a * b) % d

/-- The fold, from left to right, of the arrivals whose ranks are `r - width + 1` to `r`. -/
def sliding (f : Fold) (d : Int) (e : Nat → Int) (width r : Nat) : Int :=
  (List.range' (r - width + 2) (width - 1)).foldl (fun a i => f.modulo d a (e i)) (e (r - width + 1))

variable (f : Fold) {d : Int}

theorem value_number (d a b : Int) : f.value d (.number a) (.number b) = .number (f.modulo d a b) := by
  cases f <;> rfl

theorem modulo_mem_domain (hd : 0 < d) (a b : Int) : 0 ≤ f.modulo d a b ∧ f.modulo d a b < d := by
  have hrange (n : Int) : 0 ≤ n % d ∧ n % d < d := ⟨Int.emod_nonneg n hd.ne', Int.emod_lt_of_pos n hd⟩
  cases f with
  | addition => exact hrange (a + b)
  | multiplication => exact hrange (a * b)

theorem over_numbers (d : Int) (e : Nat → Int) (i : Nat) (is : List Nat) :
    f.over d ((i :: is).map fun i => .number (e i)) =
      .number (is.foldl (fun a i => f.modulo d a (e i)) (e i)) := by
  change (is.map fun i => Value.number (e i)).foldl (f.value d) (.number (e i)) = _
  generalize e i = a
  induction is generalizing a with
  | nil => rfl
  | cons i is ih =>
    rw [List.map_cons, List.foldl_cons, List.foldl_cons, value_number]
    exact ih _

theorem sliding_one (d : Int) (e : Nat → Int) {r : Nat} (hr : 1 ≤ r) : f.sliding d e 1 r = e r := by
  have hfirst : r - 1 + 1 = r := Nat.sub_add_cancel hr
  rw [sliding, hfirst]
  rfl

theorem sliding_mem_domain (hd : 0 < d) {e : Nat → Int} (he : ∀ r, 0 ≤ e r ∧ e r < d) (width r : Nat) :
    0 ≤ f.sliding d e width r ∧ f.sliding d e width r < d := by
  rw [sliding]
  generalize List.range' (r - width + 2) (width - 1) = is
  cases is using List.reverseRecOn with
  | nil => exact he _
  | append_singleton is i =>
    rw [List.foldl_concat]
    exact f.modulo_mem_domain hd _ _

end StreamCheck.Fold

namespace StreamCheck.Network
open Smv Kind

namespace Stream
variable {x : Stream} {e : Nat → Int} {t : Nat}

/-- How many events have arrived up to a moment: the rank of the one that arrives then. -/
def rank (x : Stream) (t : Nat) : Nat := Nat.count (fun u => x.fires u = true) (t + 1)

/-- The event of rank `r` that the stream carries, at whichever moment, is the number `e r`. -/
def Carries (x : Stream) (e : Nat → Int) : Prop := ∀ t, x.fires t = true → x.value t = .number (e (x.rank t))

theorem length_events (x : Stream) (t : Nat) : (x.events t).length = Nat.count (fun u => x.fires u = true) t := by
  induction t with
  | zero => rfl
  | succ t ih => rw [length_events_succ, Nat.count_succ, ih]

theorem rank_of_fires (h : x.fires t = true) : x.rank t = (x.events t).length + 1 := by
  rw [rank, Nat.count_succ, if_pos h, length_events]

theorem Carries.events_eq (h : x.Carries e) (t : Nat) :
    x.events t = (List.range' 1 (x.events t).length).map fun r => .number (e r) := by
  induction t with
  | zero => rfl
  | succ t ih =>
    cases hx : x.fires t with
    | false => rw [events_succ_of_not_fires hx, ← ih]
    | true =>
      have hvalue : x.value t = .number (e (1 + (x.events t).length)) := by
        rw [h t hx, rank_of_fires hx, Nat.add_comm]
      rw [events_succ_of_fires hx, List.length_append, List.length_singleton, List.range'_1_concat,
        List.map_append, ← ih, hvalue]
      rfl

theorem Carries.recent_concat (h : x.Carries e) (hx : x.fires t = true) {n : Nat} (hn : n < x.rank t) :
    recent x n t ++ [x.value t] =
      (List.range' (x.rank t - n) (n + 1)).map fun r => .number (e r) := by
  have hrank := rank_of_fires hx
  generalize hk : (x.events t).length = k at hrank
  have hlast : x.rank t - n + n = x.rank t := Nat.sub_add_cancel hn.le
  have hdrop : (List.range' 1 k).drop (k - n) = List.range' (x.rank t - n) n := by
    have hstart : 1 + (k - n) * 1 = x.rank t - n := by omega
    have hcount : k - (k - n) = n := by omega
    rw [List.drop_range', hstart, hcount]
  rw [recent, h.events_eq t, List.length_map, List.length_range', hk, ← List.map_drop, hdrop, h t hx,
    List.range'_1_concat, hlast, List.map_append]
  rfl

end Stream

variable {processor : NodeId} {f : Fold} {width : Nat} {hwidth : 0 < width} {s : Sizes} {τ : Trace}

theorem Kind.Runs.window_sliding (h : (Kind.window processor f width hwidth).Runs s τ) (hq : 0 < s.queue)
    {e : Nat → Int} (he : (τ.input 0).Carries e) (t : Nat) :
    ((τ.output 0).fires t = true ↔ (τ.input 0).fires t = true ∧ width ≤ (τ.input 0).rank t) ∧
      ((τ.output 0).fires t = true →
        (τ.output 0).value t = .number (f.sliding s.domain e width ((τ.input 0).rank t))) := by
  obtain ⟨hfires, hvalue⟩ := h.window_output hq t
  have hiff : (τ.output 0).fires t = true ↔ (τ.input 0).fires t = true ∧ width ≤ (τ.input 0).rank t := by
    rw [hfires, Stream.fires_drop, Bool.and_eq_true, decide_eq_true_eq]
    refine and_congr_right fun hx => ?_
    rw [Stream.rank_of_fires hx]
    omega
  refine ⟨hiff, fun hout => ?_⟩
  obtain ⟨hx, hfull⟩ := hiff.1 hout
  have hlen : width - 1 ≤ ((τ.input 0).events t).length := by
    rw [Stream.rank_of_fires hx] at hfull
    omega
  have hlt : width - 1 < (τ.input 0).rank t := by omega
  have hfirst : (τ.input 0).rank t - (width - 1) = (τ.input 0).rank t - width + 1 := by omega
  rw [hvalue hlen, he.recent_concat hx hlt, hfirst, List.range'_succ, Fold.over_numbers, Fold.sliding]

/-- In every run of a window's module, whatever the numbers of the domain that arrive and whenever they do, it
fires with the arrivals from rank `width` on, and puts out the fold of the last `width` of them. -/
theorem window_slides_over_arrivals (id : NodeId) (processor : NodeId) (f : Fold) {width : Nat}
    (hwidth : 0 < width) {s : Sizes} (hd : 0 < s.domain) (hq : 0 < s.queue) :
    ∃ m, (Node.mk id (.window processor f width hwidth)).leafModule s = .ok m ∧ m.isBracketed ∧
      ∀ (τ : Trace) (e : Nat → Int), m.Obeyed τ → (τ.input 0).Carries e → (∀ r, 0 ≤ e r ∧ e r < s.domain) →
        ∀ t, ((τ.output 0).fires t = true ↔ (τ.input 0).fires t = true ∧ width ≤ (τ.input 0).rank t) ∧
          ((τ.output 0).fires t = true →
            let v := f.sliding s.domain e width ((τ.input 0).rank t)
            (τ.output 0).value t = .number v ∧ (0 ≤ v ∧ v < s.domain) ∧
              (width = 1 → v = e ((τ.input 0).rank t))) := by
  have hm : (Node.mk id (.window processor f width hwidth)).leafModule s = .ok _ := rfl
  refine ⟨_, hm, Node.isBracketed_leafModule hm, fun τ e hτ he hrange t => ?_⟩
  have hruns : (Kind.window processor f width hwidth).Runs s τ := Node.runs_of_obeyed hm hτ
  obtain ⟨hfires, hvalue⟩ := hruns.window_sliding hq he t
  refine ⟨hfires, fun hout => ⟨hvalue hout, f.sliding_mem_domain hd hrange width _, fun hone => ?_⟩⟩
  have hfull := (hfires.1 hout).2
  subst hone
  exact f.sliding_one s.domain e hfull

/-- A window of three events over the numbers modulo five, which multiplies, and to which the ranks themselves
arrive at every other moment. -/
theorem window_slides_over_arrivals_of_three : ∃ m τ,
    (Node.mk 2 (.window 1 .multiplication 3 (by decide))).leafModule ⟨5, 2⟩ = .ok m ∧ m.isBracketed ∧
      m.Obeyed τ ∧ (τ.input 0).Carries (fun r => r % 5) ∧ (∀ t, (τ.input 0).fires t = (t % 2 == 0)) ∧
      ∀ t, ((τ.output 0).fires t = true ↔ (τ.input 0).fires t = true ∧ 3 ≤ (τ.input 0).rank t) ∧
        ((τ.output 0).fires t = true →
          let v := Fold.sliding .multiplication 5 (fun r => r % 5) 3 ((τ.input 0).rank t)
          (τ.output 0).value t = .number v ∧ (0 ≤ v ∧ v < 5) ∧ (3 = 1 → v = (τ.input 0).rank t % 5)) := by
  obtain ⟨m, hm, hbracketed, hslides⟩ := window_slides_over_arrivals 2 1 .multiplication
    (by decide : 0 < 3) (s := ⟨5, 2⟩) (by decide) (by decide)
  obtain ⟨τ, hτ, hinputs⟩ := Node.exists_run hm
    (fun _ t => .number (Nat.count (fun u => (u % 2 == 0) = true) (t + 1) % 5 : Nat)) (fun _ t => .truth (t % 2 == 0))
  have hfires : ∀ t, (τ.input 0).fires t = (t % 2 == 0) := fun t => congrArg Value.isTrue (hinputs 0 t).2
  have hcarries : (τ.input 0).Carries (fun r => r % 5) := by
    intro t _
    refine (hinputs 0 t).1.trans ?_
    simp only [Stream.rank, hfires]
    norm_cast
  have hrange : ∀ r : Nat, 0 ≤ (r % 5 : Int) ∧ (r % 5 : Int) < 5 := by omega
  exact ⟨m, τ, hm, hbracketed, hτ, hcarries, hfires, hslides τ _ hτ hcarries hrange⟩

end StreamCheck.Network
