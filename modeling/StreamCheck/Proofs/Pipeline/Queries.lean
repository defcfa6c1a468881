import StreamCheck.Pipeline.Catalog
import StreamCheck.Proofs.Pipeline.Sections

/-! The plans of each query: which domain they need, and that over such a domain all their nodes behave in
some way. -/

namespace StreamCheck.Pipeline
open Network Creator

namespace Query

def blueprint : Query → Blueprint
  | dummy => fun _ _ => none
  | passthrough | comparePassthroughDelay => fun _ _ => some .passthrough
  | product => fun _ _ => some .product
  | productOfFirst => fun _ shape =>
    some (.productOfFirst (effective shape defaultShape) (effective_pos shape defaultShape_pos))
  | productWindow => fun _ shape =>
    some (.window .multiplication (effective shape defaultShape) (effective_pos shape defaultShape_pos)
      (some (effective shape defaultShape)))
  | sumOfOnes => fun domain shape =>
    if domain < 2 then none
    else some (.sumOfOnes (effective shape defaultShape) (effective_pos shape defaultShape_pos))
  | sumOfDoubles => fun domain _ => if domain < 3 then none else some .sumOfDoubles
  | outputIfSmaller => fun domain shape =>
    if (domain : Int) ≤ effective shape defaultShape then none
    else some (.outputIfSmaller (effective shape defaultShape))
  | compareWindowSum2 => fun _ _ => some (.window .addition 2 pos_two none)
  | compareWindowSum3 => fun _ _ => some (.window .addition 3 pos_three none)

/-- The plan of the section that a query's first one is compared with, or of the same one again. -/
def counterpart : Query → Blueprint
  | compareWindowSum2 => fun _ _ => some .trimSum2
  | compareWindowSum3 => fun _ _ => some .trimSum3
  | comparePassthroughDelay => fun _ shape => some (.delay (effective shape defaultDelay))
  | q => q.blueprint

theorem counterpart_eq_blueprint {q : Query} (h : q.isComparison = false) : q.counterpart = q.blueprint := by
  cases q <;> first | rfl | cases h

theorem draws {q : Query} {r : Recipe} (h : q.recipe? = some r) :
    r.first.Draws q.blueprint ∧ (r.second.getD r.first).Draws q.counterpart := by
  cases q with
  | dummy => nomatch h
  | passthrough =>
    cases h
    exact ⟨draws_passthrough, draws_passthrough⟩
  | product =>
    cases h
    exact ⟨draws_product, draws_product⟩
  | productOfFirst =>
    cases h
    exact ⟨draws_productOfFirst, draws_productOfFirst⟩
  | productWindow =>
    cases h
    exact ⟨draws_productWindow, draws_productWindow⟩
  | sumOfOnes =>
    cases h
    exact ⟨draws_sumOfOnes, draws_sumOfOnes⟩
  | sumOfDoubles =>
    cases h
    exact ⟨draws_sumOfDoubles, draws_sumOfDoubles⟩
  | outputIfSmaller =>
    cases h
    exact ⟨draws_outputIfSmaller, draws_outputIfSmaller⟩
  | compareWindowSum2 =>
    cases h
    exact ⟨draws_windowSum pos_two, draws_trimSum2⟩
  | compareWindowSum3 =>
    cases h
    exact ⟨draws_windowSum pos_three, draws_trimSum3⟩
  | comparePassthroughDelay =>
    cases h
    exact ⟨draws_passthrough, draws_delay⟩

def leastDomain (q : Query) (shape : Option Int) : Int :=
  match q with
  | sumOfOnes => 2
  | sumOfDoubles => 3
  | outputIfSmaller => effective shape defaultShape + 1
  | _ => 1

variable {q : Query} {domain : Nat} {shape : Option Int}

theorem exists_blueprint (hq : q ≠ dummy) (h : q.leastDomain shape ≤ domain) :
    (∃ P, q.blueprint domain shape = some P) ∧ ∃ P, q.counterpart domain shape = some P := by
  cases q with
  | dummy => exact absurd rfl hq
  | sumOfOnes =>
    have hdomain : ¬ domain < 2 := by
      change (2 : Int) ≤ domain at h
      omega
    exact ⟨⟨_, if_neg hdomain⟩, ⟨_, if_neg hdomain⟩⟩
  | sumOfDoubles =>
    have hdomain : ¬ domain < 3 := by
      change (3 : Int) ≤ domain at h
      omega
    exact ⟨⟨_, if_neg hdomain⟩, ⟨_, if_neg hdomain⟩⟩
  | outputIfSmaller =>
    have hdomain : ¬ (domain : Int) ≤ effective shape defaultShape := by
      change effective shape defaultShape + 1 ≤ domain at h
      omega
    exact ⟨⟨_, if_neg hdomain⟩, ⟨_, if_neg hdomain⟩⟩
  | _ => exact ⟨⟨_, rfl⟩, ⟨_, rfl⟩⟩

theorem blueprint_eq_none (hdomain : 0 < domain) (h : (domain : Int) < q.leastDomain shape) :
    q.blueprint domain shape = none := by
  cases q with
  | sumOfOnes =>
    change (domain : Int) < 2 at h
    exact if_pos (by omega)
  | sumOfDoubles =>
    change (domain : Int) < 3 at h
    exact if_pos (by omega)
  | outputIfSmaller =>
    change (domain : Int) < effective shape defaultShape + 1 at h
    exact if_pos (by omega)
  | _ =>
    change (domain : Int) < 1 at h
    omega

/-- The plans that a query has over a domain, the blueprint or its counterpart, with what the domain has room
for. -/
inductive Draft (domain : Nat) (shape : Option Int) : Query → Plan → Prop
  | passthrough : Draft domain shape passthrough .passthrough
  | product : Draft domain shape product .product
  | productOfFirst : Draft domain shape productOfFirst
      (.productOfFirst (effective shape defaultShape) (effective_pos shape defaultShape_pos))
  | productWindow : Draft domain shape productWindow
      (.window .multiplication (effective shape defaultShape) (effective_pos shape defaultShape_pos)
        (some (effective shape defaultShape)))
  | sumOfOnes (hdomain : 2 ≤ domain) : Draft domain shape sumOfOnes
      (.sumOfOnes (effective shape defaultShape) (effective_pos shape defaultShape_pos))
  | sumOfDoubles (hdomain : 3 ≤ domain) : Draft domain shape sumOfDoubles .sumOfDoubles
  | outputIfSmaller (hdomain : effective shape defaultShape < domain) : Draft domain shape outputIfSmaller
      (.outputIfSmaller (effective shape defaultShape))
  | windowSum2 : Draft domain shape compareWindowSum2 (.window .addition 2 pos_two none)
  | trimSum2 : Draft domain shape compareWindowSum2 .trimSum2
  | windowSum3 : Draft domain shape compareWindowSum3 (.window .addition 3 pos_three none)
  | trimSum3 : Draft domain shape compareWindowSum3 .trimSum3
  | undelayed : Draft domain shape comparePassthroughDelay .passthrough
  | delayed : Draft domain shape comparePassthroughDelay (.delay (effective shape defaultDelay))

theorem draft_of_blueprint {P : Plan} (hP : q.blueprint domain shape = some P) : q.Draft domain shape P := by
  cases q with
  | dummy => nomatch hP
  | sumOfOnes =>
    obtain ⟨hdomain, hplan⟩ := Option.ite_none_left_eq_some.1 hP
    obtain rfl := Option.some.inj hplan
    exact .sumOfOnes (by omega)
  | sumOfDoubles =>
    obtain ⟨hdomain, hplan⟩ := Option.ite_none_left_eq_some.1 hP
    obtain rfl := Option.some.inj hplan
    exact .sumOfDoubles (by omega)
  | outputIfSmaller =>
    obtain ⟨hdomain, hplan⟩ := Option.ite_none_left_eq_some.1 hP
    obtain rfl := Option.some.inj hplan
    exact .outputIfSmaller (by omega)
  | _ =>
    obtain rfl := Option.some.inj hP
    constructor

theorem draft_of_counterpart {P : Plan} (hP : q.counterpart domain shape = some P) : q.Draft domain shape P := by
  cases q with
  | compareWindowSum2 | compareWindowSum3 | comparePassthroughDelay =>
    obtain rfl := Option.some.inj hP
    constructor
  | _ => exact draft_of_blueprint hP

end Query
end StreamCheck.Pipeline

namespace StreamCheck.Network
open Smv

theorem Circuit.exists_behaviour_constant {s : Sizes} {v : Int} (h : 0 ≤ v ∧ v < s.domain) (input : PortType) :
    ∃ b, behaviour s (.constant (.number v) input) = .ok b := by
  have hliteral : literal s (.number v) = .ok (.num v) := if_pos h
  exact ⟨_, behaviour_constant_eq_ok.2 ⟨_, hliteral, rfl⟩⟩

namespace Plan
variable {s : Sizes}

theorem behaves_sumOfOnes {k : Int} {hk : 0 < k} (h : 2 ≤ s.domain) : (sumOfOnes k hk).Behaves s := by
  have hone := Circuit.exists_behaviour_constant (s := s) (v := 1) (by omega) .integer
  intro n hn
  simp only [sumOfOnes, make, List.mem_cons, List.not_mem_nil, or_false] at hn
  rcases hn with rfl | rfl | rfl
  · exact hone
  all_goals exact ⟨_, rfl⟩

theorem behaves_sumOfDoubles (h : 3 ≤ s.domain) : sumOfDoubles.Behaves s := by
  have htwo := Circuit.exists_behaviour_constant (s := s) (v := 2) (by omega) .integer
  intro n hn
  simp only [sumOfDoubles, make, List.mem_cons, List.not_mem_nil, or_false] at hn
  rcases hn with rfl | rfl | rfl | rfl
  case inr.inr.inl => exact htwo
  all_goals exact ⟨_, rfl⟩

theorem behaves_outputIfSmaller {k : Int} (hk : 0 < k) (h : k < s.domain) : (outputIfSmaller k).Behaves s := by
  have hone := Circuit.exists_behaviour_constant (s := s) (v := 1) (by omega) .integer
  have hturn := Circuit.exists_behaviour_constant (s := s) (v := k) (by omega) .integer
  intro n hn
  simp only [outputIfSmaller, make, List.mem_cons, List.not_mem_nil, or_false] at hn
  rcases hn with rfl | rfl | rfl | rfl | rfl | rfl
  case inr.inr.inl => exact hturn
  case inr.inr.inr.inl => exact hone
  all_goals exact ⟨_, rfl⟩

theorem behaves_of_forall {P : Plan} (h : P.nodes.all fun n => n.kind matches
    .passthrough _ | .fork .. | .trim .. | .decimate .. | .filter _ | .apply .. | .cumulate _ | .window ..) :
    P.Behaves s := by
  intro n hn
  have hkind := List.all_eq_true.1 h n hn
  cases hk : n.kind <;> rw [hk] at hkind <;> first | exact ⟨_, rfl⟩ | nomatch hkind

end Plan
end StreamCheck.Network

namespace StreamCheck.Pipeline
open Network Creator

theorem Query.Draft.behaves {q : Query} {domain : Nat} {shape : Option Int} {s : Sizes} {P : Plan}
    (h : q.Draft domain shape P) (hs : s.domain = domain) : P.Behaves s := by
  cases h with
  | sumOfOnes hdomain => exact Plan.behaves_sumOfOnes (by omega)
  | sumOfDoubles hdomain => exact Plan.behaves_sumOfDoubles (by omega)
  | outputIfSmaller hdomain =>
    exact Plan.behaves_outputIfSmaller (effective_pos shape defaultShape_pos) (by omega)
  | _ => exact Plan.behaves_of_forall rfl

end StreamCheck.Pipeline
