import StreamCheck.Network.Compilation
import StreamCheck.Smv.Run

/-! Streams: what passes on the wires of a network as time goes by, an event at some moments and none at
others. -/

namespace StreamCheck.Network
open Smv

/-- What passes on a wire: at each moment a value, and whether it counts as an event. -/
abbrev Stream := Nat → Value × Value

namespace Stream

def fires (x : Stream) (t : Nat) : Bool := (x t).2.isTrue

def value (x : Stream) (t : Nat) : Value := (x t).1

def events (x : Stream) : Nat → List Value
  | 0 => []
  | t + 1 => x.events t ++ if x.fires t then [x.value t] else []

def clean (x : Stream) : Stream := fun t => (x.value t, .truth (x.fires t))

/-- Two streams have their events at the same moments, and the same ones. -/
def Agree (x y : Stream) : Prop :=
  ∀ t, x.fires t = y.fires t ∧ (x.fires t = true → x.value t = y.value t)

/-- A stream of numbers of the domain `0..d-1`. -/
def Over (x : Stream) (d : Int) : Prop := ∀ t, (x.value t).Fits (.upTo (d - 1)) ∧ (x t).2.Fits .boolean

variable {x y : Stream} {t : Nat}

@[simp] theorem fires_clean (x : Stream) : x.clean.fires = x.fires := rfl

theorem clean_eq_self (h : ∀ t, (x t).2.Fits .boolean) : x.clean = x := by
  funext t
  refine Prod.ext rfl ?_
  have hfits := h t
  change Value.truth (x t).2.isTrue = (x t).2
  cases hv : (x t).2 with
  | truth b => rfl
  | number n =>
    rw [hv] at hfits
    exact hfits.elim

theorem events_succ (x : Stream) (t : Nat) :
    x.events (t + 1) = x.events t ++ if x.fires t then [x.value t] else [] := rfl

theorem events_succ_of_fires (h : x.fires t = true) : x.events (t + 1) = x.events t ++ [x.value t] := by
  rw [events_succ, if_pos h]

theorem events_succ_of_not_fires (h : x.fires t = false) : x.events (t + 1) = x.events t := by
  rw [events_succ, h, if_neg Bool.false_ne_true, List.append_nil]

theorem length_events_succ (x : Stream) (t : Nat) :
    (x.events (t + 1)).length = (x.events t).length + if x.fires t then 1 else 0 := by
  rw [events_succ, List.length_append]
  cases x.fires t <;> rfl

theorem events_congr (hfires : x.fires = y.fires) (hvalue : x.value = y.value) :
    x.events t = y.events t := by
  induction t with
  | zero => rfl
  | succ t ih => rw [events_succ, events_succ, ih, hfires, hvalue]

theorem length_events_congr (h : x.fires = y.fires) : (x.events t).length = (y.events t).length := by
  induction t with
  | zero => rfl
  | succ t ih => rw [length_events_succ, length_events_succ, ih, h]

@[simp] theorem events_clean (x : Stream) (t : Nat) : x.clean.events t = x.events t :=
  events_congr rfl rfl

def drop (x : Stream) (n : Nat) : Stream :=
  fun t => (x.value t, .truth (x.fires t && decide (n ≤ (x.events t).length)))

/-- The first of every so many events of the stream. -/
def every (x : Stream) (k : Nat) : Stream :=
  fun t => (x.value t, .truth (x.fires t && decide ((x.events t).length % k = 0)))

@[simp] theorem drop_clean (x : Stream) (n : Nat) : x.clean.drop n = x.drop n := by
  funext t
  rw [drop, drop, events_clean]
  rfl

@[simp] theorem every_clean (x : Stream) (k : Nat) : x.clean.every k = x.every k := by
  funext t
  rw [every, every, events_clean]
  rfl

theorem fires_drop (x : Stream) (n t : Nat) :
    (x.drop n).fires t = (x.fires t && decide (n ≤ (x.events t).length)) := rfl

theorem fires_every (x : Stream) (k t : Nat) :
    (x.every k).fires t = (x.fires t && decide ((x.events t).length % k = 0)) := rfl

theorem events_drop (x : Stream) (n t : Nat) : (x.drop n).events t = (x.events t).drop n := by
  induction t with
  | zero => exact List.drop_nil.symm
  | succ t ih =>
    rw [events_succ, events_succ, ih, fires_drop]
    cases x.fires t with
    | false => simp
    | true =>
      rw [if_pos rfl, List.drop_append, Bool.true_and]
      by_cases hn : n ≤ (x.events t).length
      · rw [Nat.sub_eq_zero_of_le hn, decide_eq_true hn]
        rfl
      · have hlt : [x.value t].length ≤ n - (x.events t).length := by
          rw [List.length_singleton]
          omega
        rw [decide_eq_false hn, List.drop_eq_nil_of_le hlt, if_neg Bool.false_ne_true]

/-! ### Streams with an event at every moment -/

def always (v : Nat → Value) : Stream := fun t => (v t, .truth true)

theorem over_always {v : Nat → Value} {d : Int} (h : ∀ t, (v t).Fits (.upTo (d - 1))) : (always v).Over d :=
  fun t => ⟨h t, trivial⟩

theorem events_always (v : Nat → Value) (t : Nat) : (always v).events t = (List.range t).map v := by
  induction t with
  | zero => rfl
  | succ t ih =>
    rw [events_succ_of_fires rfl, ih, List.range_succ, List.map_append]
    rfl

theorem length_events_of_fires (h : ∀ t, x.fires t = true) (t : Nat) : (x.events t).length = t := by
  induction t with
  | zero => rfl
  | succ t ih => rw [length_events_succ, ih, h t, if_pos rfl]

end Stream

def Wire.stream (wire : Wire) (σ : Trace) : Stream := fun t => (σ t ⟨wire.1, none⟩, σ t ⟨wire.2, none⟩)

end StreamCheck.Network

namespace StreamCheck.Smv
open Network

def Trace.input (σ : Trace) (j : Nat) : Stream := Wire.stream (.own (.inValue j), .own (.inFire j)) σ

def Trace.output (σ : Trace) (p : Nat) : Stream := Wire.stream (.own (.outValue p), .own (.outFire p)) σ

end StreamCheck.Smv
