import StreamCheck.Proofs.Formula.Verdicts
import StreamCheck.Proofs.Smv.Typing

/-! Which names a formula uses, and as what. -/

namespace StreamCheck.Formula
open Smv

variable {offers : Spot → ValueType → Prop} {f : Formula}

/-- All that a formula speaks of is offered as what the formula takes it for. -/
def Suits (offers : Spot → ValueType → Prop) : Formula → Prop
  | xStaysNull => offers ⟨.own (.other "x"), none⟩ .number
  | noFullQueues flags => ∀ q ∈ flags, offers ⟨q.name, some (q.size - 1)⟩ .truth
  | liveness inputs outputs | boundedLiveness inputs outputs =>
    (∀ n ∈ inputs, offers ⟨.own (.pipeInFire n), none⟩ .truth) ∧
      ∀ n ∈ outputs, offers ⟨.own (.pipeOutFire n), none⟩ .truth
  | outputAlwaysEven outputs => ∀ n ∈ outputs,
    offers ⟨.own (.pipeOutFire n), none⟩ .truth ∧ offers ⟨.own (.pipeOutValue n), none⟩ .number
  | outputAlwaysTrue outputs | sequenceEquivalence outputs => ∀ n ∈ outputs,
    offers ⟨.own (.pipeOutFire n), none⟩ .truth ∧ offers ⟨.own (.pipeOutValue n), none⟩ .truth
  | stepEquivalence outputs => ∃ type, ∀ n ∈ outputs,
    offers ⟨.own (.pipeOutFire n), none⟩ .truth ∧ offers ⟨.own (.pipeOutValue n), none⟩ type

theorem mem_ascending {n : Int} {pipes : List Int} : n ∈ ascending pipes ↔ n ∈ pipes :=
  List.mem_mergeSort

theorem typed_conj_ascending {statement : Int → Temporal} {pipes : List Int}
    (h : ∀ n ∈ pipes, (statement n).Typed offers) :
    ∀ t ∈ Temporal.conj? ((ascending pipes).map statement), t.Typed offers := by
  exact Temporal.Typed.conj? (List.forall_mem_map.2 fun n hn => h n (mem_ascending.1 hn))

theorem hasType_allArrive {inputs : List Int} (h : ∀ n ∈ inputs, offers ⟨.own (.pipeInFire n), none⟩ .truth) :
    (allArrive inputs).HasType offers .truth := by
  have harrives : ∀ e ∈ inputs.map arrives, e.HasType offers .truth :=
    List.forall_mem_map.2 fun n hn => .var (h n hn)
  match inputs with
  | [] => exact .bool true
  | [n] => exact .var (h n List.mem_cons_self)
  | n :: n' :: ns => exact .paren (.conj harrives)

theorem typed_whenever {inputs : List Int} (h : ∀ n ∈ inputs, offers ⟨.own (.pipeInFire n), none⟩ .truth)
    {response : Temporal} (hresponse : response.Typed offers) : (whenever inputs response).Typed offers :=
  ⟨hasType_allArrive fun n hn => h n (mem_ascending.1 hn), hresponse⟩

theorem typed_agree {type : ValueType} {a b : Int}
    (ha : offers ⟨.own (.pipeOutFire a), none⟩ .truth ∧ offers ⟨.own (.pipeOutValue a), none⟩ type)
    (hb : offers ⟨.own (.pipeOutFire b), none⟩ .truth ∧ offers ⟨.own (.pipeOutValue b), none⟩ type) :
    (agree a b).Typed offers := by
  have hfires : (Expr.binary .eq (fires a) (fires b)).HasType offers .truth := .binary (.var ha.1) (.var hb.1) rfl
  have hvalues : (Expr.binary .eq (value a) (value b)).HasType offers .truth :=
    .binary (.var ha.2) (.var hb.2) (if_pos rfl)
  exact .binary hfires (.paren (.binary (.var ha.1) hvalues rfl)) rfl

theorem typed_pairwiseAgree {type : ValueType} {pipes : List Int}
    (h : ∀ n ∈ pipes, offers ⟨.own (.pipeOutFire n), none⟩ .truth ∧ offers ⟨.own (.pipeOutValue n), none⟩ type) :
    ∀ t ∈ pairwiseAgree pipes, t.Typed offers := by
  induction pipes with
  | nil => exact fun t ht => nomatch ht
  | cons n ns ih =>
    obtain ⟨hn, hns⟩ := List.forall_mem_cons.1 h
    exact List.forall_mem_append.2 ⟨List.forall_mem_map.2 fun n' hn' => typed_agree hn (hns n' hn'), ih hns⟩

theorem typed_noFullQueues {flags : List QueueFlags} (h : ∀ q ∈ flags, offers ⟨q.name, some (q.size - 1)⟩ .truth) :
    ∀ t ∈ (noFullQueues flags).statement?, t.Typed offers := by
  intro t ht
  cases hflags : byName flags with
  | nil =>
    rw [statement?_noFullQueues_of_nil hflags] at ht
    nomatch ht
  | cons q qs =>
    rw [statement?_noFullQueues hflags] at ht
    obtain rfl := Option.some.inj ht
    have hfull : ∀ x ∈ q :: qs, x.full.HasType offers .truth := by
      intro x hx
      rw [← hflags, mem_byName] at hx
      exact .slot (h x hx)
    obtain ⟨hq, hqs⟩ := List.forall_mem_cons.1 hfull
    exact hq.foldl rfl (List.forall_mem_map.2 hqs)

theorem Suits.typed (h : f.Suits offers) : ∀ t ∈ f.statement?, t.Typed offers := by
  cases f with
  | xStaysNull =>
    have hzero : (Expr.binary .eq (.own (.other "x")) (.num 0)).HasType offers .truth :=
      .binary (.var h) (.num 0) rfl
    intro t ht
    obtain rfl := Option.some.inj ht
    exact ⟨hzero, hzero⟩
  | noFullQueues flags => exact typed_noFullQueues h
  | liveness inputs outputs =>
    refine typed_conj_ascending fun n hn => typed_whenever h.1 ?_
    exact .var (h.2 n hn)
  | boundedLiveness inputs outputs =>
    refine typed_conj_ascending fun n hn => typed_whenever h.1 ?_
    have hfires : (fires n).HasType offers .truth := .var (h.2 n hn)
    exact ⟨hfires, hfires, hfires⟩
  | outputAlwaysEven outputs =>
    refine typed_conj_ascending fun n hn => ?_
    have hremainder : (Expr.binary .mod (value n) (.num 2)).HasType offers .number :=
      .binary (.var (h n hn).2) (.num 2) rfl
    exact .binary (.var (h n hn).1) (.binary hremainder (.num 0) rfl) rfl
  | outputAlwaysTrue outputs | sequenceEquivalence outputs =>
    refine typed_conj_ascending fun n hn => ?_
    exact .binary (.var (h n hn).1) (.var (h n hn).2) rfl
  | stepEquivalence outputs =>
    obtain ⟨type, htype⟩ := h
    exact Temporal.Typed.conj? (typed_pairwiseAgree fun n hn => htype n (mem_ascending.1 hn))

theorem exists_reads_noFullQueues {flags : List QueueFlags} {q : QueueFlags} (hq : q ∈ flags) :
    ∃ t ∈ (noFullQueues flags).statement?, ⟨q.name, some (q.size - 1)⟩ ∈ t.reads := by
  rw [← mem_byName] at hq
  cases hflags : byName flags with
  | nil =>
    rw [hflags] at hq
    nomatch hq
  | cons x xs =>
    rw [hflags] at hq
    refine ⟨_, statement?_noFullQueues hflags, ?_⟩
    change _ ∈ (someFull x xs).reads
    rw [someFull, Expr.reads_foldl_binary]
    obtain rfl | hq := List.mem_cons.1 hq
    · exact List.mem_append_left _ List.mem_cons_self
    · exact List.mem_append_right _ (List.mem_flatMap.2 ⟨_, List.mem_map_of_mem hq, List.mem_cons_self⟩)

end StreamCheck.Formula
