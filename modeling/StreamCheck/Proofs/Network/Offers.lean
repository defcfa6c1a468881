import StreamCheck.Proofs.Formula.Typing
import StreamCheck.Proofs.Network.Discovery
import StreamCheck.Subject.Applicable

/-! What a compiled model offers to formulas: its pipes, and the last slot of each of its queues. -/

namespace StreamCheck
open Smv

inductive Smv.Model.Offers (m : Model) : Spot → ValueType → Prop
  | arrival {n : Int} (h : ⟨.pipeInFire n, .scalar .boolean⟩ ∈ m.main.declarations) :
    Offers m ⟨.own (.pipeInFire n), none⟩ .truth
  | departure {n : Int} (h : ⟨.pipeOutFire n, .scalar .boolean⟩ ∈ m.main.declarations) :
    Offers m ⟨.own (.pipeOutFire n), none⟩ .truth
  | value {n : Int} {t : Scalar} (h : ⟨.pipeOutValue n, .scalar t⟩ ∈ m.main.declarations) :
    Offers m ⟨.own (.pipeOutValue n), none⟩ t.valueType
  /-- The last slot of a queue, in an instance at the end of the path. -/
  | full {path : List Nat} {j : Nat} {size : Int} (h : (⟨path, .queueFlags j⟩, .array size .boolean) ∈ m.declarations)
    (hsize : 0 < size) : Offers m ⟨⟨path, .queueFlags j⟩, some (size - 1)⟩ .truth
  | counter {last : Int} (h : ⟨.other "x", .scalar (.upTo last)⟩ ∈ m.main.declarations) :
    Offers m ⟨.own (.other "x"), none⟩ .number

theorem eq_of_unlessEmpty {α β : Type} {xs : List α} {a b : β} (h : unlessEmpty xs a = some b) : a = b := by
  rw [unlessEmpty, Option.ite_none_left_eq_some] at h
  exact Option.some.inj h.2

namespace Network.Workspace
variable {w : Workspace} {s : Sizes} {g : GraphId} {c : CompiledGraph} {n : Int} {around : List Node}

theorem offers_input (hc : w.compile s g = .ok c.model) (hn : n ∈ c.inputs) :
    c.model.Offers ⟨.own (.pipeInFire n), none⟩ .truth := by
  obtain ⟨e, he, rfl⟩ := (mem_inputs_compile hc).1 hn
  have hfire : (⟨.pipeInFire e.pipe, .scalar .boolean⟩ : Declaration) ∈
      [⟨.pipeInValue e.pipe, w.pipeType s .input e⟩, ⟨.pipeInFire e.pipe, .scalar .boolean⟩] :=
    List.mem_cons_of_mem _ List.mem_cons_self
  refine .arrival ?_
  rw [(compile_eq_ok hc).2.2]
  exact List.mem_append_left _ (List.mem_append_left _ (List.mem_flatMap.2 ⟨e, he, hfire⟩))

theorem offers_external (hc : w.compile s g = .ok c.model) {e : External} (he : e ∈ (w.graph g).outputs) :
    c.model.Offers ⟨.own (.pipeOutFire e.pipe), none⟩ .truth ∧
      c.model.Offers ⟨.own (.pipeOutValue e.pipe), none⟩ (s.scalar (w.typeOf .output e.port)).valueType := by
  have hdeclared : ∀ d ∈ [⟨.pipeOutValue e.pipe, w.pipeType s .output e⟩, ⟨.pipeOutFire e.pipe, .scalar .boolean⟩],
      d ∈ c.model.main.declarations := by
    intro d hd
    rw [(compile_eq_ok hc).2.2]
    exact List.mem_append_right _ (List.mem_flatMap.2 ⟨e, he, hd⟩)
  obtain ⟨hvalue, hfire⟩ := List.forall_mem_cons.1 hdeclared
  exact ⟨.departure (hfire _ List.mem_cons_self), .value hvalue⟩

theorem offers_output (hc : w.compile s g = .ok c.model) (hn : n ∈ c.outputs) :
    c.model.Offers ⟨.own (.pipeOutFire n), none⟩ .truth := by
  obtain ⟨e, he, rfl⟩ := (mem_outputs_compile hc).1 hn
  exact (offers_external hc he).1

theorem offers_integer (hc : w.compile s g = .ok c.model) (hn : n ∈ c.outputs) (hinteger : n ∉ c.booleanOutputs) :
    c.model.Offers ⟨.own (.pipeOutFire n), none⟩ .truth ∧ c.model.Offers ⟨.own (.pipeOutValue n), none⟩ .number := by
  obtain ⟨e, he, hpipe⟩ := (mem_outputs_compile hc).1 hn
  have hoffers := offers_external hc he
  cases htype : w.typeOf .output e.port with
  | boolean => exact absurd ((mem_booleanOutputs_compile hc).2 ⟨e, he, hpipe, htype⟩) hinteger
  | integer =>
    rw [htype, ← hpipe] at hoffers
    exact hoffers

theorem offers_boolean (hc : w.compile s g = .ok c.model) (hn : n ∈ c.booleanOutputs) :
    c.model.Offers ⟨.own (.pipeOutFire n), none⟩ .truth ∧ c.model.Offers ⟨.own (.pipeOutValue n), none⟩ .truth := by
  obtain ⟨e, he, rfl, htype⟩ := (mem_booleanOutputs_compile hc).1 hn
  have hoffers := offers_external hc he
  rw [htype] at hoffers
  exact hoffers

theorem offers_full (hc : w.compile s g = .ok c.model) (hw : w.WiredThroughout g around) (hq : 0 < s.queue)
    {q : QueueFlags} (h : q ∈ c.queueFlags) : c.model.Offers ⟨q.name, some (q.size - 1)⟩ .truth := by
  obtain ⟨path, j, t, hdeclared, rfl⟩ := mem_queueFlags.1 h
  have harray := hdeclared
  rw [mem_declarations_model hc, mem_declarations_instances hw (compile_eq_ok hc).2.1] at harray
  obtain ⟨n, -, -, rfl⟩ := harray
  exact .full hdeclared hq

theorem suits_overGraph? (hc : w.compile s g = .ok c.model) (hw : w.WiredThroughout g around) (hq : 0 < s.queue)
    {p : Property} {f : Formula} (hf : p.overGraph? c = some f)
    (hsame : p = .stepEquivalence → ∃ type, ∀ e ∈ (w.graph g).outputs, w.typeOf .output e.port = type) :
    f.Suits c.model.Offers := by
  cases p with
  | xStaysNull => nomatch hf
  | noFullQueues =>
    obtain rfl := Option.some.inj hf
    exact fun q => offers_full hc hw hq
  | liveness | boundedLiveness =>
    obtain rfl := eq_of_unlessEmpty hf
    exact ⟨fun n => offers_input hc, fun n => offers_output hc⟩
  | outputAlwaysEven =>
    obtain rfl := eq_of_unlessEmpty hf
    intro n hn
    obtain ⟨hn, hinteger⟩ := List.mem_filter.1 hn
    rw [Bool.not_eq_true', ← Bool.not_eq_true, List.contains_iff_mem] at hinteger
    exact offers_integer hc hn hinteger
  | outputAlwaysTrue | sequenceEquivalence =>
    obtain rfl := eq_of_unlessEmpty hf
    exact fun n => offers_boolean hc
  | stepEquivalence =>
    obtain rfl := Option.some.inj hf
    obtain ⟨type, htype⟩ := hsame rfl
    refine ⟨(s.scalar type).valueType, fun n hn => ?_⟩
    obtain ⟨e, he, rfl⟩ := (mem_outputs_compile hc).1 hn
    have hoffers := offers_external hc he
    rwa [htype e he] at hoffers

end Network.Workspace
end StreamCheck
