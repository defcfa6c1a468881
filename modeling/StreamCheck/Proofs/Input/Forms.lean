import StreamCheck.Settings.Precedence

/-! When a form finds nothing wrong: each of its fields passes its check. -/

namespace StreamCheck.Input.Form
variable {α β : Type} {f : Form α} {g : α → Form β} {a : α} {p : α → Prop} {q : α → β → Prop}

def after (f : Form α) (issues : List Issue) : α × List Issue := f.run issues

/-- A form that comes to a value without finding anything wrong does so for the values of a kind only. It forgets
nothing that was found wrong before. -/
structure Reads (f : Form α) (p : α → Prop) : Prop where
  keeps : ∀ issues, ∃ more, (f.after issues).2 = issues ++ more
  gives : ∀ a, f.after [] = (a, []) ↔ p a

theorem Reads.finish_eq_ok_iff (h : f.Reads p) : f.finish = .ok a ↔ p a := by
  have hrun : f.run [] = f.after [] := rfl
  rw [← h.gives a, finish, hrun]
  rcases f.after [] with ⟨a', _ | ⟨issue, issues⟩⟩ <;> simp

theorem Reads.congr (h : f.Reads p) {p' : α → Prop} (hp : ∀ a, p a ↔ p' a) : f.Reads p' :=
  ⟨h.keeps, fun a => (h.gives a).trans (hp a)⟩

theorem reads_pure (a : α) : (pure a : Form α).Reads (a = ·) := by
  have hpure (issues : List Issue) : (pure a : Form α).after issues = (a, issues) := rfl
  exact ⟨fun issues => ⟨[], (List.append_nil issues).symm⟩, fun b => by simp [hpure]⟩

theorem Reads.bind (hf : f.Reads p) (hg : ∀ a, (g a).Reads (q a)) : (f >>= g).Reads fun b => ∃ a, p a ∧ q a b := by
  have hbind (issues : List Issue) : (f >>= g).after issues = (g (f.after issues).1).after (f.after issues).2 := rfl
  constructor
  · intro issues
    obtain ⟨more, hmore⟩ := hf.keeps issues
    obtain ⟨last, hlast⟩ := (hg (f.after issues).1).keeps (f.after issues).2
    exact ⟨more ++ last, hlast.trans (by rw [hmore, List.append_assoc])⟩
  · intro b
    rw [hbind]
    constructor
    · intro h
      obtain ⟨more, hmore⟩ := (hg (f.after []).1).keeps (f.after []).2
      rw [h] at hmore
      have hnone : (f.after []).2 = [] := (List.append_eq_nil_iff.1 hmore.symm).1
      rw [hnone] at h
      exact ⟨(f.after []).1, (hf.gives _).1 (Prod.ext rfl hnone), ((hg _).gives b).1 h⟩
    · rintro ⟨a, ha, hb⟩
      rw [(hf.gives a).2 ha]
      exact ((hg a).gives b).2 hb

section Fields
variable [Inhabited α]

theorem reads_report (path : List String) (t : Trouble) :
    (do report path t; return default : Form α).Reads fun _ => False := by
  have hreport (issues : List Issue) :
      (do report path t; return default : Form α).after issues = (default, issues ++ [⟨path, t⟩]) := rfl
  refine ⟨fun issues => ⟨_, by rw [hreport]⟩, fun a => ?_⟩
  rw [hreport]
  simp

theorem reads_given (path : List String) (check : Check α) (v : Datum) :
    (given path check v).Reads (check v = .ok ·) := by
  rw [given]
  cases check v with
  | ok a => exact (reads_pure a).congr fun b => by simp
  | error t => exact (reads_report path t).congr fun b => by simp

theorem reads_defaulted (d : Datum) (path : List String) (key : String) (check : Check α) (otherwise : α) :
    (defaulted d path key check otherwise).Reads (check.orElse otherwise (d.field? key) = .ok ·) := by
  rw [defaulted]
  cases d.field? key with
  | none => exact (reads_pure otherwise).congr fun a => by simp [Check.orElse]
  | some v => exact reads_given (path ++ [key]) check v

end Fields

end StreamCheck.Input.Form
