import StreamCheck.Proofs.Pipeline.Assembly

/-! Which configurations have a pipeline: those of a query of the catalog, over a domain that has its
constants. -/

namespace StreamCheck.Pipeline
open Network

theorem Query.ofName?_name (q : Query) : Query.ofName? q.name = some q := by
  cases q <;> rfl

theorem Query.name_of_ofName? {s : String} {q : Query} (h : ofName? s = some q) : q.name = s := by
  have hfound := List.find?_some (p := fun q : Query => q.name == s) h
  exact eq_of_beq hfound

namespace Catalog
variable {c : Configuration} {q : Query} {P : Plan}

theorem exists_counterpart (hP : q.blueprint c.domain.toNat c.shape = some P) :
    ∃ Q, q.counterpart c.domain.toNat c.shape = some Q := by
  have hdummy : q ≠ .dummy := by
    rintro rfl
    nomatch hP
  by_cases hdomain : q.leastDomain c.shape ≤ c.domain.toNat
  · exact (Query.exists_blueprint hdummy hdomain).2
  · rw [Query.blueprint_eq_none (domain_toNat_pos c) (Int.not_le.1 hdomain)] at hP
    nomatch hP

def Feasible (c : Configuration) : Prop := ∃ w a w', (assemble c).run w = .ok (some a) w'

theorem exists_plans_or_none (c : Configuration) :
    (∃ q P Q, Query.ofName? c.query = some q ∧ q.blueprint c.domain.toNat c.shape = some P ∧
      q.counterpart c.domain.toNat c.shape = some Q) ∨
    ∀ q, Query.ofName? c.query = some q → q.blueprint c.domain.toNat c.shape = none := by
  refine or_iff_not_imp_left.2 fun hnone q hquery => Option.eq_none_iff_forall_ne_some.2 fun P hP => ?_
  obtain ⟨Q, hQ⟩ := exists_counterpart hP
  exact hnone ⟨q, P, Q, hquery, hP, hQ⟩

theorem not_feasible (h : ∀ q, Query.ofName? c.query = some q → q.blueprint c.domain.toNat c.shape = none) :
    ¬ Feasible c := by
  rintro ⟨w, a, w', hrun⟩
  obtain ⟨taken, new, hfails⟩ := assemble_run_none h
  rw [hfails w] at hrun
  nomatch hrun

theorem Feasible.exists_plans (h : Feasible c) : ∃ q P Q, Query.ofName? c.query = some q ∧
    q.blueprint c.domain.toNat c.shape = some P ∧ q.counterpart c.domain.toNat c.shape = some Q :=
  (exists_plans_or_none c).resolve_right fun hnone => not_feasible hnone h

theorem feasible_iff : Feasible c ↔ ∃ q ∈ queries, c.query = q.name ∧ q.leastDomain c.shape ≤ c.domain := by
  constructor
  · intro h
    obtain ⟨q, P, Q, hquery, hP, -⟩ := h.exists_plans
    refine ⟨q, ?_, ?_, ?_⟩
    · cases q with
      | dummy => nomatch hP
      | _ => decide
    · exact (Query.name_of_ofName? hquery).symm
    · by_contra hsmall
      rw [← toNat_domain c] at hsmall
      rw [Query.blueprint_eq_none (domain_toNat_pos c) (Int.not_le.1 hsmall)] at hP
      nomatch hP
  · rintro ⟨q, hq, hname, hsmall⟩
    have hdummy : q ≠ .dummy := by
      rintro rfl
      exact absurd hq (by decide)
    rw [← toNat_domain c] at hsmall
    obtain ⟨⟨P, hP⟩, Q, hQ⟩ := Query.exists_blueprint hdummy hsmall
    have hquery : Query.ofName? c.query = some q := by rw [hname, Query.ofName?_name]
    exact ⟨default, _, _, assemble_run hquery hP hQ⟩

end Catalog
end StreamCheck.Pipeline
