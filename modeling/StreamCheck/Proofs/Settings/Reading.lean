import StreamCheck.Proofs.Basic
import StreamCheck.Proofs.Input.Forms
import StreamCheck.Settings.Precedence

/-! A document gives settings when its sections are mappings and each place of it means a setting. -/

namespace StreamCheck

namespace Input.Datum

def Sectioned (d : Datum) (names : List String) : Prop :=
  ∀ name ∈ names, ∃ fields, (d.field? name).getD (.mapping []) = .mapping fields

theorem under_eq_lookup {d : Datum} {name : String} {fields : List (String × Datum)}
    (h : (d.field? name).getD (.mapping []) = .mapping fields) (key : String) :
    d.under name key = fields.lookup key := by
  rw [under]
  cases hv : d.field? name with
  | none =>
    rw [hv] at h
    cases h
    rfl
  | some v =>
    rw [hv] at h
    rw [Option.bind_some, show v = mapping fields from h]
    rfl

end Input.Datum

open Input

open Form in
theorem CheckerSettings.reads_form (temporary : String) (path : List String) (d : Datum) :
    (form temporary path d).Reads fun c =>
      ∃ binary, Check.text.orElse "NuSMV" (d.field? "binary_path") = .ok binary ∧
      ∃ workDir, Check.path.orElse temporary (d.field? "work_dir") = .ok workDir ∧
      ∃ timeout, (Check.optional Check.real).orElse none (d.field? "timeout_s") = .ok timeout ∧
      ∃ keepModels, Check.truth.orElse false (d.field? "keep_model_files") = .ok keepModels ∧
        ⟨binary, Text.normalPath workDir, timeout.bind limit, keepModels⟩ = c := by
  refine (reads_defaulted d path _ _ _).bind fun binary => ?_
  refine (reads_defaulted d path _ _ _).bind fun workDir => ?_
  refine (reads_defaulted d path _ _ _).bind fun timeout => ?_
  exact (reads_defaulted d path _ _ _).bind fun keepModels => reads_pure _

open Form in
theorem JournalSettings.reads_form (path : List String) (d : Datum) :
    (form path d).Reads fun j =>
      ∃ level, Check.text.orElse "INFO" (d.field? "level") = .ok level ∧
      ∃ format, Check.text.orElse "console" (d.field? "format") = .ok format ∧ ⟨level, format⟩ = j := by
  refine (reads_defaulted d path _ _ _).bind fun level => ?_
  exact (reads_defaulted d path _ _ _).bind fun format => reads_pure _

namespace Settings
variable {temporary : String} {d : Datum} {s : Settings}

theorem reads_part {α : Type} [Inhabited α] {form : Datum → Form α} {p : Datum → α → Prop}
    (h : ∀ d, (form d).Reads (p d)) (d : Datum) (name : String) :
    (part d name form).Reads fun a =>
      ∃ fields, (d.field? name).getD (.mapping []) = .mapping fields ∧ p (.mapping fields) a := by
  rw [part]
  cases d.field? name with
  | none => exact (h (.mapping [])).congr fun a => by simp
  | some v =>
    cases v with
    | mapping fields => exact (h (.mapping fields)).congr fun a => by simp
    | _ => exact (Form.reads_report [name] .notMapping).congr fun a => by simp

variable {said : Place → Option Datum}

theorem meaning_eq_valueOf_iff :
    (∀ p ∈ Place.all, p.meaning temporary (said p) = .ok (s.valueOf p)) ↔
      Check.text.orElse "NuSMV" (said .binary) = .ok s.checker.binary ∧
      (∃ w, Check.path.orElse temporary (said .workDir) = .ok w ∧ Text.normalPath w = s.checker.workDir) ∧
      (∃ t, (Check.optional Check.real).orElse none (said .timeout) = .ok t ∧
        t.bind CheckerSettings.limit = s.checker.timeout) ∧
      Check.truth.orElse false (said .keepModels) = .ok s.checker.keepModels ∧
      Check.text.orElse "INFO" (said .level) = .ok s.journal.level ∧
      Check.text.orElse "console" (said .format) = .ok s.journal.format := by
  simp [Place.all, Place.meaning, Settings.valueOf, map_eq_ok_iff, Place.binary, Place.workDir, Place.timeout,
    Place.keepModels, Place.level, Place.format]

theorem exists_valueOf (h : ∀ p ∈ Place.all, ∃ x, p.meaning temporary (said p) = .ok x) :
    ∃ s : Settings, ∀ p ∈ Place.all, p.meaning temporary (said p) = .ok (s.valueOf p) := by
  obtain ⟨⟨b, hb⟩, ⟨w, hw⟩, ⟨t, ht⟩, ⟨k, hk⟩, ⟨l, hl⟩, f, hf⟩ :
      (∃ b, Check.text.orElse "NuSMV" (said .binary) = .ok b) ∧
      (∃ w, Check.path.orElse temporary (said .workDir) = .ok w) ∧
      (∃ t, (Check.optional Check.real).orElse none (said .timeout) = .ok t) ∧
      (∃ k, Check.truth.orElse false (said .keepModels) = .ok k) ∧
      (∃ l, Check.text.orElse "INFO" (said .level) = .ok l) ∧
      ∃ f, Check.text.orElse "console" (said .format) = .ok f := by
    simpa [Place.all, Place.meaning, exists_map_eq_ok_iff, Place.binary, Place.workDir, Place.timeout,
      Place.keepModels, Place.level, Place.format] using h
  let checker : CheckerSettings := ⟨b, Text.normalPath w, t.bind CheckerSettings.limit, k⟩
  exact ⟨⟨checker, ⟨l, f⟩⟩, meaning_eq_valueOf_iff.2 ⟨hb, ⟨w, hw, rfl⟩, ⟨t, ht, rfl⟩, hk, hl, hf⟩⟩

theorem sections_eq : Place.sections = ["checker", "logging"] := by decide +kernel

theorem read_eq_ok_iff : read temporary d = .ok s ↔
    d.Sectioned Place.sections ∧ ∀ p ∈ Place.all, p.meaning temporary (p.said d) = .ok (s.valueOf p) := by
  have hread := (reads_part (CheckerSettings.reads_form temporary ["checker"]) d "checker").bind fun checker =>
    (reads_part (JournalSettings.reads_form ["logging"]) d "logging").bind fun journal =>
      Form.reads_pure (Settings.mk checker journal)
  rw [meaning_eq_valueOf_iff, sections_eq]
  refine hread.finish_eq_ok_iff.trans ?_
  constructor
  · rintro ⟨c, ⟨fields, hfields, b, hb, w, hw, t, ht, k, hk, rfl⟩, j, ⟨fields', hfields', l, hl, f, hf, rfl⟩, rfl⟩
    have hc := Datum.under_eq_lookup hfields
    have hj := Datum.under_eq_lookup hfields'
    refine ⟨by simp [Datum.Sectioned, hfields, hfields'], ?_⟩
    simp only [Place.said, Place.binary, Place.workDir, Place.timeout, Place.keepModels, Place.level, Place.format,
      hc, hj]
    exact ⟨hb, ⟨w, hw, rfl⟩, ⟨t, ht, rfl⟩, hk, hl, hf⟩
  · rintro ⟨hsections, hb, ⟨w, hw, hw'⟩, ⟨t, ht, ht'⟩, hk, hl, hf⟩
    obtain ⟨fields, hfields⟩ := hsections "checker" (by simp)
    obtain ⟨fields', hfields'⟩ := hsections "logging" (by simp)
    have hc := Datum.under_eq_lookup hfields
    have hj := Datum.under_eq_lookup hfields'
    simp only [Place.said, Place.binary, Place.workDir, Place.timeout, Place.keepModels, Place.level, Place.format,
      hc, hj] at hb hw ht hk hl hf
    exact ⟨s.checker, ⟨fields, hfields, _, hb, w, hw, t, ht, _, hk, by rw [hw', ht']⟩,
      s.journal, ⟨fields', hfields', _, hl, _, hf, rfl⟩, rfl⟩

end Settings

end StreamCheck
