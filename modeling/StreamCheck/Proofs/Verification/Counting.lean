import StreamCheck.Proofs.Pipeline.Reports
import StreamCheck.Proofs.Verification.Batches
import StreamCheck.Proofs.Verification.Reruns
import StreamCheck.Verification.Summary

/-! Counting: the graphs that a batch runs on are counted by the classes of their configurations, and a summary of its
records counts the classes as they are reported. -/

namespace StreamCheck
open Pipeline Network

namespace Verification

/-! ### Distinct keys -/

namespace Summary

theorem distinct_concat (keys : List Key) (k : Key) : distinct (keys ++ [k]) =
    if (distinct keys).any (·.matches? k) then distinct keys else distinct keys ++ [k] :=
  List.foldl_concat ..

theorem any_matches?_iff {keys : List Key} {k : Key} :
    keys.any (·.matches? k) = true ↔ (⟦k⟧ : Key.Class) ∈ keys.map (Quotient.mk Key.setoid) := by
  rw [List.any_eq_true, List.mem_map]
  exact exists_congr fun k' => and_congr_right fun _ => (Quotient.eq (r := Key.setoid)).symm

theorem mem_distinct_iff (keys : List Key) (x : Key.Class) :
    x ∈ (distinct keys).map (Quotient.mk Key.setoid) ↔ x ∈ keys.map (Quotient.mk Key.setoid) := by
  induction keys using List.reverseRecOn with
  | nil => rfl
  | append_singleton keys k ih =>
    rw [distinct_concat, List.map_append, List.mem_append, ← ih]
    split_ifs with hseen
    · rw [any_matches?_iff] at hseen
      refine ⟨.inl, fun h => h.elim id fun hx => ?_⟩
      rwa [List.mem_singleton.1 hx]
    · rw [List.map_append, List.mem_append]

theorem nodup_distinct (keys : List Key) : ((distinct keys).map (Quotient.mk Key.setoid)).Nodup := by
  induction keys using List.reverseRecOn with
  | nil => exact List.nodup_nil
  | append_singleton keys k ih =>
    rw [distinct_concat]
    split_ifs with hseen
    · exact ih
    · rw [any_matches?_iff] at hseen
      rw [List.map_append]
      exact List.nodup_append_comm.1 (List.nodup_cons.2 ⟨hseen, ih⟩)

theorem length_distinct (keys : List Key) :
    (distinct keys).length = (keys.map (Quotient.mk Key.setoid)).toFinset.card := by
  have hsame : (keys.map (Quotient.mk Key.setoid)).toFinset =
      ((distinct keys).map (Quotient.mk Key.setoid)).toFinset := by
    ext x
    rw [List.mem_toFinset, List.mem_toFinset, mem_distinct_iff]
  rw [hsame, List.toFinset_card_of_nodup (nodup_distinct keys), List.length_map]

theorem modelCount_models (records : List Record) : (models records).modelCount =
    (((records.filter ofPipeline).map key).map (Quotient.mk Key.setoid)).toFinset.card := by
  rw [← length_distinct, models]
  cases records.filter ofPipeline <;> rfl

end Summary

/-! ### Records -/

theorem Record.model_broken (r : Record) (f : Failure) :
    Summary.key (r.broken f) = Summary.key r ∧ Summary.ofPipeline (r.broken f) = Summary.ofPipeline r := by
  rw [broken]
  split_ifs <;> exact ⟨rfl, rfl⟩

theorem Trail.model_note (r : Record) (trail : Trail) :
    Summary.key (trail.note r) = Summary.key r ∧ Summary.ofPipeline (trail.note r) = Summary.ofPipeline r := by
  cases trail with
  | unchecked failure => exact Record.model_broken _ failure
  | checked check failure => exact Record.model_broken _ failure
  | done check stats => exact ⟨rfl, rfl⟩

namespace Experiment

def Reports (e : Experiment) (r : Record) : Prop :=
  Summary.key r = Summary.key e.newRecord ∧ Summary.ofPipeline r = Summary.ofPipeline e.newRecord

theorem reports_of_run {e : Experiment} {c : Checker} {s : Scene} {after : Running}
    (h : (e.run c).run ⟨s, e.newRecord⟩ = .ok () after) : e.Reports after.record := by
  obtain ⟨trail, htrail⟩ := e.exists_trail c s
  rw [← after_of_ok h, htrail]
  exact trail.model_note e.newRecord

theorem ofPipeline_newRecord (e : Experiment) : Summary.ofPipeline e.newRecord = e.subject.graph?.isSome := by
  obtain ⟨subject, formula, keepModel⟩ := e
  cases subject with
  | network c => exact natCast_bne_notObserved c.processors
  | counter queue domain => rfl

/-- An experiment over a pipeline runs on the graph that a cache keeps for its configuration, and its record is about the
pipeline as it is reported. -/
structure RunsOn (e : Experiment) (archive : Archive) (c : CacheId) (config : Configuration) : Prop where
  holds : ∀ g ∈ e.subject.graph?, Holds archive c config g
  key : e.subject.graph?.isSome = true → Summary.key e.newRecord = (Key.ofConfiguration config).reported

theorem RunsOn.mono {e : Experiment} {archive archive' : Archive} {c : CacheId} {config : Configuration}
    (h : e.RunsOn archive c config) (hold : HoldsOn c archive archive') : e.RunsOn archive' c config :=
  ⟨fun g hg => (h.holds g hg).mono hold, h.key⟩

end Experiment

theorem key_of_yields {config : Configuration} {s : Subject} {f : Formula} {keepModel : Bool}
    (hyields : config.Yields (some s)) (hf : Formula.named? config.property s = some f) (hs : s.graph?.isSome = true) :
    Summary.key (Experiment.newRecord ⟨s, f, keepModel⟩) = (Key.ofConfiguration config).reported := by
  have hproperty := Factory.property_of_named? hf
  cases hyields with
  | counter dummy => nomatch hs
  | @network w P Q compiled compiles =>
    calc Summary.key (Experiment.newRecord ⟨.network compiled, f, keepModel⟩)
      _ = ⟨compiled.name, compiled.sizes.queue, compiled.sizes.domain, compiled.shape, f.property.name⟩ := rfl
      _ = (Key.ofConfiguration config).reported := by
        rw [compiles.name, compiles.sizes, compiles.shape_eq, hproperty]
        rfl

/-! ### Batches -/

namespace Factory
variable {archive final : Archive} {cs : List Configuration} {experiments : List (Option Experiment)}
  {records : List (Option Record)}

section
variable (factory : Factory)

theorem exists_get_runsOn (ha : Accountable archive factory.library.cache) (config : Configuration) : ∃ e archive',
    (factory.get config).run archive = .ok e archive' ∧ Accountable archive' factory.library.cache ∧
      HoldsOn factory.library.cache archive archive' ∧ ∀ x ∈ e, x.RunsOn archive' factory.library.cache config := by
  obtain ⟨m, archive', hgot, hrun⟩ := Library.exists_got ha.traced config
  refine ⟨_, archive', get_run factory hrun, hgot.accountable ha, hgot.holdsOn ha.kept, fun x hx => ?_⟩
  obtain ⟨s, rfl, hx⟩ := Option.bind_eq_some_iff.1 hx
  obtain ⟨f, hf, rfl⟩ := Option.map_eq_some_iff.1 hx
  exact ⟨hgot.holds ha.kept s rfl, key_of_yields (hgot.yields ha.traced) hf⟩

theorem exists_gets_runsOn (ha : Accountable archive factory.library.cache) (cs : List Configuration) :
    ∃ experiments final, (cs.mapM factory.get).run archive = .ok experiments final ∧
      Accountable final factory.library.cache ∧ HoldsOn factory.library.cache archive final ∧
      List.Forall₂ (fun config e => ∀ x ∈ e, x.RunsOn final factory.library.cache config) cs experiments :=
  exists_mapM_run (HoldsOn factory.library.cache)
    (fun archive config e => ∀ x ∈ e, Experiment.RunsOn x archive factory.library.cache config) (.refl _)
    (fun _ _ _ => .trans) (fun _ _ _ _ hold h x hx => (h x hx).mono hold)
    (fun config _ _ ha => exists_get_runsOn factory ha config) ha

end

theorem reports_of_runNew {f : Factory} {e : Experiment} {r : Record} {s : Scene} {after : Laboratory}
    (h : (f.runNew e).run ⟨archive, s⟩ = .ok r after) : after.archive = archive ∧ e.Reports r := by
  simp only [EStateM.run] at h
  rw [runNew] at h
  cases hrun : e.run f.checker ⟨s, e.newRecord⟩ with
  | ok _ ended =>
    rw [hrun] at h
    obtain ⟨rfl, rfl⟩ := EStateM.Result.ok.inj h
    exact ⟨rfl, Experiment.reports_of_run hrun⟩
  | error failure ended =>
    rw [hrun] at h
    cases h

theorem reports_of_runOne {f : Factory} {config : Configuration} {e : Option Experiment} {r : Option Record} {s : Scene}
    {after : Laboratory} (hget : (f.get config).run archive = .ok e final)
    (hrun : (f.runOne config).run ⟨archive, s⟩ = .ok r after) :
    after.archive = final ∧ Option.Rel Experiment.Reports e r := by
  rw [runOne, run_bind_ok (keep_run hget)] at hrun
  cases e with
  | none =>
    obtain ⟨rfl, rfl⟩ := EStateM.Result.ok.inj hrun
    exact ⟨rfl, .none⟩
  | some e =>
    obtain ⟨r', after', hnew, hlast⟩ := exists_of_run_bind hrun
    obtain ⟨rfl, rfl⟩ := EStateM.Result.ok.inj hlast
    obtain ⟨harchive, hreports⟩ := reports_of_runNew hnew
    exact ⟨harchive, .some hreports⟩

theorem reports_of_mapM_runOne {f : Factory} {s : Scene} {after : Laboratory}
    (hgets : (cs.mapM f.get).run archive = .ok experiments final)
    (hruns : (cs.mapM f.runOne).run ⟨archive, s⟩ = .ok records after) :
    after.archive = final ∧ List.Forall₂ (Option.Rel Experiment.Reports) experiments records := by
  induction cs generalizing archive s experiments records with
  | nil =>
    obtain ⟨rfl, rfl⟩ := EStateM.Result.ok.inj hgets
    obtain ⟨rfl, rfl⟩ := EStateM.Result.ok.inj hruns
    exact ⟨rfl, .nil⟩
  | cons config cs ih =>
    rw [List.mapM_cons] at hgets hruns
    obtain ⟨e, archive', hget, htail⟩ := exists_of_run_bind hgets
    obtain ⟨es, _, hgets', hlast⟩ := exists_of_run_bind htail
    obtain ⟨rfl, rfl⟩ := EStateM.Result.ok.inj hlast
    obtain ⟨r, ⟨_, s'⟩, hrun, htail⟩ := exists_of_run_bind hruns
    obtain ⟨rs, _, hruns', hlast⟩ := exists_of_run_bind htail
    obtain ⟨rfl, rfl⟩ := EStateM.Result.ok.inj hlast
    obtain ⟨rfl, hfirst⟩ := reports_of_runOne hget hrun
    obtain ⟨harchive, hrest⟩ := ih hgets' hruns'
    exact ⟨harchive, .cons hfirst hrest⟩

/-! ### Counts -/

def pipelines (cs : List Configuration) (experiments : List (Option Experiment)) : List (Configuration × GraphId) :=
  (cs.zip experiments).filterMap fun x => (x.2.bind fun e => e.subject.graph?).map (x.1, ·)

def graphs (ps : List (Configuration × GraphId)) : Finset GraphId := (ps.map Prod.snd).toFinset

def classes (ps : List (Configuration × GraphId)) : Finset Key.Class := (ps.map fun x => x.1.keyClass).toFinset

section
variable {c : CacheId} {ps : List (Configuration × GraphId)}

theorem mem_classes {k : Key.Class} : k ∈ classes ps ↔ ∃ x ∈ ps, x.1.keyClass = k := by
  rw [classes, List.mem_toFinset, List.mem_map]

theorem card_graphs (ha : Apart final c) (h : ∀ x ∈ ps, Holds final c x.1 x.2) :
    (graphs ps).card = (classes ps).card :=
  card_toFinset_map fun x hx y hy => ha.graph_eq_iff (h x hx) (h y hy)

theorem image_reported_classes (ps : List (Configuration × GraphId)) : (classes ps).image Key.Class.reported =
    ((ps.map fun x => (Key.ofConfiguration x.1).reported).map (Quotient.mk Key.setoid)).toFinset := by
  ext k
  rw [Finset.mem_image, List.mem_toFinset, List.map_map, List.mem_map]
  constructor
  · rintro ⟨_, hclass, rfl⟩
    obtain ⟨x, hx, rfl⟩ := mem_classes.1 hclass
    exact ⟨x, hx, rfl⟩
  · rintro ⟨x, hx, rfl⟩
    exact ⟨_, mem_classes.2 ⟨x, hx, rfl⟩, rfl⟩

theorem card_image_reported_eq_iff : ((classes ps).image Key.Class.reported).card = (classes ps).card ↔
    ∀ x ∈ ps, ∀ y ∈ ps, x.1.keyClass.reported = y.1.keyClass.reported → x.1.shape = y.1.shape := by
  rw [Finset.card_image_iff]
  constructor
  · intro hinjective x hx y hy hreported
    refine (Configuration.keyClass_eq_iff hreported).1 (hinjective ?_ ?_ hreported)
    · exact mem_classes.2 ⟨x, hx, rfl⟩
    · exact mem_classes.2 ⟨y, hy, rfl⟩
  · intro hshapes k hk k' hk' hreported
    obtain ⟨x, hx, rfl⟩ := mem_classes.1 hk
    obtain ⟨y, hy, rfl⟩ := mem_classes.1 hk'
    exact (Configuration.keyClass_eq_iff hreported).2 (hshapes x hx y hy hreported)

theorem holds_of_mem_pipelines
    (h : List.Forall₂ (fun config e => ∀ x ∈ e, Experiment.RunsOn x final c config) cs experiments) :
    ∀ x ∈ pipelines cs experiments, Holds final c x.1 x.2 := by
  intro x hx
  obtain ⟨⟨config, e⟩, hmem, hx⟩ := List.mem_filterMap.1 hx
  obtain ⟨g, hg, rfl⟩ := Option.map_eq_some_iff.1 hx
  obtain ⟨e, rfl, hg⟩ := Option.bind_eq_some_iff.1 hg
  exact (List.forall₂_zip h hmem e rfl).holds g hg

theorem keys_of_reports
    (h : List.Forall₂ (fun config e => ∀ x ∈ e, Experiment.RunsOn x final c config) cs experiments)
    (hreports : List.Forall₂ (Option.Rel Experiment.Reports) experiments records) :
    ((records.filterMap id).filter Summary.ofPipeline).map Summary.key =
      (pipelines cs experiments).map fun x => (Key.ofConfiguration x.1).reported := by
  induction h generalizing records with
  | nil =>
    cases hreports
    rfl
  | @cons config e cs es hfirst _ ih =>
    obtain _ | ⟨hreport, hrest⟩ := hreports
    have htail := ih hrest
    cases hreport with
    | none => simpa [pipelines] using htail
    | @some e r hreport =>
      obtain ⟨hkey, hpipeline⟩ := hreport
      rw [e.ofPipeline_newRecord] at hpipeline
      cases hgraph : e.subject.graph? with
      | none =>
        rw [hgraph] at hpipeline
        simpa [pipelines, hgraph, hpipeline] using htail
      | some g =>
        have hreported := hkey.trans ((hfirst e rfl).key (hgraph ▸ rfl))
        rw [hgraph] at hpipeline
        simpa [pipelines, hgraph, hpipeline, hreported] using htail

end

/-- A new library and a factory over it run a batch, whatever the checker does. Every pipeline runs on the graph that the
cache keeps for its configuration, so there are as many graphs as classes of keys. What a summary of the records counts
are the classes as they are reported: never more than there are graphs, and less exactly if some that are reported as
one ask for different shapes. -/
theorem models_counted_as_reported (archive : Archive) (cs : List Configuration) (checker : Checker) (keepModels : Bool)
    (s : Scene) : ∃ library opened experiments used, Library.fresh.run archive = .ok library opened ∧
      (cs.mapM (get ⟨library, checker, keepModels⟩)).run opened = .ok experiments used ∧
      (∀ x ∈ pipelines cs experiments, Holds used library.cache x.1 x.2) ∧
      (graphs (pipelines cs experiments)).card = (classes (pipelines cs experiments)).card ∧
      (checker.timeout.bind Failure.ofLimit? = none → (∀ i ∈ s.invocations, i.Orderly checker) → ∃ records after,
        (runAll ⟨library, checker, keepModels⟩ cs).run ⟨opened, s⟩ = .ok records after) ∧
      ∀ records after, (runAll ⟨library, checker, keepModels⟩ cs).run ⟨opened, s⟩ = .ok records after →
        after.archive = used ∧
        (Summary.models records).modelCount = ((classes (pipelines cs experiments)).image Key.Class.reported).card ∧
        (Summary.models records).modelCount ≤ (graphs (pipelines cs experiments)).card ∧
        ((Summary.models records).modelCount = (graphs (pipelines cs experiments)).card ↔
          ∀ x ∈ pipelines cs experiments, ∀ y ∈ pipelines cs experiments,
            x.1.keyClass.reported = y.1.keyClass.reported → x.1.shape = y.1.shape) := by
  let factory : Factory := ⟨⟨archive.caches.length⟩, checker, keepModels⟩
  obtain ⟨experiments, used, hgets, haccountable, -, hrunsOn⟩ :=
    exists_gets_runsOn factory (accountable_addCache archive) cs
  have hholds := holds_of_mem_pipelines hrunsOn
  have hcard := card_graphs haccountable.apart hholds
  refine ⟨_, _, experiments, used, rfl, hgets, hholds, hcard, fun hlimit horderly => ?_, fun records after hrun => ?_⟩
  · obtain ⟨records, after, hruns, -⟩ := exists_mapM_runOne hlimit horderly hgets
    exact ⟨_, _, runAll_run hruns⟩
  · obtain ⟨records', after', hruns, hlast⟩ := exists_of_run_bind hrun
    obtain ⟨rfl, rfl⟩ := EStateM.Result.ok.inj hlast
    obtain ⟨harchive, hreports⟩ := reports_of_mapM_runOne hgets hruns
    have hcount : (Summary.models (records'.filterMap id)).modelCount =
        ((classes (pipelines cs experiments)).image Key.Class.reported).card := by
      rw [Summary.modelCount_models, keys_of_reports hrunsOn hreports, image_reported_classes]
    rw [hcount, hcard]
    exact ⟨harchive, rfl, Finset.card_image_le, card_image_reported_eq_iff⟩

end Factory
end Verification
end StreamCheck
