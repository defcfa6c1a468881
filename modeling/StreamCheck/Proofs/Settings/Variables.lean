import StreamCheck.Proofs.Input.Data
import StreamCheck.Proofs.Text.Splitting
import StreamCheck.Settings.Precedence

/-! What the variables of an orderly environment say about a section: under the key of each place stands the value of
its variable. -/

namespace StreamCheck.Settings
open Input

namespace Place

def comparedSection (name : String) : String := "pipebench_" ++ name

def comparedStart (name : String) : String := comparedSection name ++ "__"

def comparedName (p : Place) : String := comparedStart p.sectionName ++ p.key

theorem inSmall_section : ∀ name ∈ sections, Text.inSmall ("PIPEBENCH_" ++ name) = comparedSection name := by
  decide +kernel

theorem inSmall_variableName : ∀ p ∈ all, Text.inSmall p.variableName = p.comparedName := by decide +kernel

theorem start_comparedSection (name : String) : "pipebench_".toList <+: (comparedSection name).toList := by
  rw [comparedSection, String.toList_append]
  exact List.prefix_append _ _

theorem start_comparedStart (name : String) : "pipebench_".toList <+: (comparedStart name).toList := by
  rw [comparedStart, String.toList_append]
  exact (start_comparedSection name).trans (List.prefix_append _ _)

theorem comparedStart_comparedName (p : Place) : (comparedStart p.sectionName).toList <+: p.comparedName.toList := by
  rw [comparedName, String.toList_append]
  exact List.prefix_append _ _

theorem start_comparedName (p : Place) : "pipebench_".toList <+: p.comparedName.toList :=
  (start_comparedStart p.sectionName).trans p.comparedStart_comparedName

theorem drop_comparedName (p : Place) :
    String.ofList (p.comparedName.toList.drop (comparedStart p.sectionName).toList.length) = p.key := by
  rw [comparedName, String.toList_append, List.drop_left, String.ofList_toList]

theorem sectionName_of_comparedStart : ∀ name ∈ sections, ∀ p ∈ all,
    (comparedStart name).toList <+: p.comparedName.toList → p.sectionName = name := by decide +kernel

theorem comparedName_injective : ∀ p ∈ all, ∀ q ∈ all, p.comparedName = q.comparedName → p = q := by
  intro p hp q hq h
  have hname : p.sectionName = q.sectionName := by
    refine sectionName_of_comparedStart _ (List.mem_eraseDups.2 (List.mem_map_of_mem hq)) p hp ?_
    rw [h]
    exact q.comparedStart_comparedName
  have hkey : p.key = q.key := by rw [← p.drop_comparedName, ← q.drop_comparedName, h, hname]
  rcases p with ⟨_, _⟩
  rcases q with ⟨_, _⟩
  rw [Place.mk.injEq]
  exact ⟨hname, hkey⟩

theorem comparedSection_ne_comparedName : ∀ name ∈ sections, ∀ p ∈ all, comparedSection name ≠ p.comparedName := by
  decide +kernel

theorem key_splitOn {p : Place} (h : p ∈ all) : p.key.splitOn "__" = [p.key] := by
  have hnone : ∀ p ∈ all, ¬['_', '_'] <:+: p.key.toList := by decide +kernel
  exact Text.splitOn_eq_self (hnone p h)

theorem mem_keysOf : ∀ p ∈ all, p.key ∈ keysOf p.sectionName :=
  fun _ hp => List.mem_map_of_mem (List.mem_filter.2 ⟨hp, beq_self_eq_true _⟩)

theorem find_keysOf : ∀ name ∈ sections, ∀ key ∈ keysOf name,
    (keysOf name).find? (fun k => Text.inSmall k == Text.inSmall key) = some key := by decide +kernel

end Place

namespace VariableForm
variable {env : Environment} {vars : List (String × Datum)} {p : Place} {name : String}

/-- Variables by their compared names, those of the program being the variables of places with a text each. -/
def OfPlaces (vars : List (String × Datum)) : Prop :=
  ∀ x ∈ vars, "pipebench_".toList <+: x.1.toList → ∃ p ∈ Place.all, x.1 = p.comparedName ∧ ∃ t, x.2 = .text t

theorem exists_byName (h : Orderly env) : ∃ vars, byName {} env = vars ∧ (vars.map Prod.fst).Nodup ∧ OfPlaces vars ∧
    ∀ p ∈ Place.all, vars.lookup p.comparedName = (env.lookup p.variableName).map .text := by
  have hall : (env.filter fun v => !(({} : VariableForm).skipsEmpty && v.2.isEmpty)) = env :=
    List.filter_eq_self.2 fun _ _ => rfl
  have hname : byName {} env = (Datum.ofFields (env.map fun v => (Text.inSmall v.1, Datum.text v.2))).fields := by
    rw [byName, hall]
    rfl
  obtain ⟨vars, hvars, hdistinct, hmem, hlookup⟩ :=
    Datum.exists_ofFields (env.map fun v => (Text.inSmall v.1, Datum.text v.2))
  refine ⟨vars, by rw [hname, hvars]; rfl, hdistinct, fun x hx hstart => ?_, fun p hp => ?_⟩
  · obtain ⟨v, hv, rfl⟩ := List.mem_map.1 (hmem x hx)
    obtain ⟨p, hp, heq⟩ := h.places v hv hstart
    exact ⟨p, hp, by rw [heq, Place.inSmall_variableName p hp], v.2, rfl⟩
  · have hown : ∀ v ∈ env.reverse, Text.inSmall v.1 = Text.inSmall p.variableName → v.1 = p.variableName := by
      intro v hv heq
      rw [Place.inSmall_variableName p hp] at heq
      obtain ⟨q, hq, hvq⟩ := h.places v (List.mem_reverse.1 hv) (heq ▸ p.start_comparedName)
      rw [hvq, Place.inSmall_variableName q hq] at heq
      rw [hvq, Place.comparedName_injective q hq p hp heq]
    rw [hlookup, ← List.map_reverse, ← Place.inSmall_variableName p hp,
      lookup_map Text.inSmall Datum.text hown, lookup_reverse h.once]

def said (name : String) (d : Datum) (x : String × Datum) : Except SectionFault Datum :=
  if (Place.comparedStart name).toList.isPrefixOf x.1.toList then
    (names {} "__" (String.ofList (x.1.toList.drop (Place.comparedStart name).toList.length))).map fun ns =>
      put ns x.2 d
  else .ok d

theorem inner_eq_foldlM (vars : List (String × Datum)) (hname : name ∈ Place.sections) :
    inner {} vars name = vars.foldlM (said name) (.mapping []) := by
  have hstart : compared {} (({} : VariableForm).start ++ name) = Place.comparedSection name :=
    Place.inSmall_section name hname
  simp only [inner, hstart]
  rfl

theorem inner_concat {d : Datum} (hname : name ∈ Place.sections) (hd : inner {} vars name = .ok d)
    (x : String × Datum) : inner {} (vars ++ [x]) name = said name d x := by
  rw [inner_eq_foldlM _ hname] at hd ⊢
  exact foldlM_concat_of_ok hd x

theorem said_of_not_start {x : String × Datum} {d : Datum}
    (hx : ¬(Place.comparedStart name).toList <+: x.1.toList) : said name d x = .ok d :=
  if_neg (by simpa using hx)

theorem said_of_place (hp : p ∈ Place.all) (fields : List (String × Datum)) (t : String) :
    said p.sectionName (.mapping fields) (p.comparedName, .text t) =
      .ok ((Datum.mapping fields).insert p.key (.text t)) := by
  have hstart := p.comparedStart_comparedName
  have hnames : names {} "__" p.key = .ok [p.key] := by
    have hsplit : names {} "__" p.key = .ok (p.key.splitOn "__") := rfl
    rw [hsplit, Place.key_splitOn hp]
  have hput : put [p.key] (.text t) (.mapping fields) = (Datum.mapping fields).insert p.key (.text t) := by
    simp [put]
  rw [said, if_pos (by simpa using hstart), p.drop_comparedName, hnames, ← hput]
  rfl

theorem inner_eq (hvars : OfPlaces vars) (hname : name ∈ Place.sections) :
    ∃ fields, inner {} vars name = .ok (.mapping fields) ∧ Datum.Distinct (.mapping fields) ∧
      (∀ f ∈ fields, f.1 ∈ Place.keysOf name) ∧
      ∀ p ∈ Place.all, p.sectionName = name → fields.lookup p.key = vars.reverse.lookup p.comparedName := by
  induction vars using List.reverseRecOn with
  | nil =>
    refine ⟨[], rfl, List.nodup_nil, ?_, fun _ _ _ => rfl⟩
    intro f hf
    cases hf
  | append_singleton vars x ih =>
    obtain ⟨fields, hfields, hdistinct, hkeys, hlookup⟩ := ih fun y hy => hvars y (List.mem_append_left _ hy)
    have hlast (q : Place) : (vars ++ [x]).reverse.lookup q.comparedName =
        if q.comparedName = x.1 then some x.2 else vars.reverse.lookup q.comparedName := by
      rw [List.reverse_append, List.reverse_singleton, List.singleton_append, lookup_cons_eq_ite]
    rw [inner_concat hname hfields]
    by_cases hstart : (Place.comparedStart name).toList <+: x.1.toList
    · obtain ⟨p, hp, hx, t, ht⟩ := hvars x (by simp) ((Place.start_comparedStart name).trans hstart)
      have hsection : p.sectionName = name := Place.sectionName_of_comparedStart name hname p hp (hx ▸ hstart)
      subst hsection
      obtain ⟨fields', hfields'⟩ := Datum.exists_insert fields p.key (.text t)
      have hsaid : said p.sectionName (.mapping fields) x = .ok (.mapping fields') := by
        rw [show x = (p.comparedName, .text t) from Prod.ext hx ht, said_of_place hp, hfields']
      have hdistinct' := Datum.distinct_insert hdistinct p.key (.text t)
      rw [hfields'] at hdistinct'
      refine ⟨fields', hsaid, hdistinct', fun f hf => ?_, fun q hq hqp => ?_⟩
      · obtain rfl | hf := Datum.mem_insert hfields' hf
        · exact Place.mem_keysOf p hp
        · exact hkeys f hf
      · have hsame : q.key = p.key ↔ q.comparedName = p.comparedName := by
          constructor
          · intro hkey
            rw [Place.comparedName, Place.comparedName, hqp, hkey]
          · intro heq
            rw [Place.comparedName_injective q hq p hp heq]
        rw [← Datum.field?_mapping, ← hfields', Datum.field?_insert, hlast, hlookup q hq hqp, hx, ht]
        simp only [hsame]
    · refine ⟨fields, said_of_not_start hstart, hdistinct, hkeys, fun q hq hqn => ?_⟩
      have hne : q.comparedName ≠ x.1 := by
        intro heq
        exact hstart (heq ▸ hqn ▸ q.comparedStart_comparedName)
      rw [hlast, if_neg hne]
      exact hlookup q hq hqn

theorem exists_sectionOf (h : Orderly env) (hname : name ∈ Place.sections) :
    ∃ fields, sectionOf {} (byName {} env) name (Place.keysOf name) =
        .ok (if fields.isEmpty then none else some (.mapping fields)) ∧
      ∀ p ∈ Place.all, p.sectionName = name → fields.lookup p.key = (env.lookup p.variableName).map .text := by
  obtain ⟨vars, hvars, hdistinct, hplaces, hlookup⟩ := exists_byName h
  obtain ⟨fields, hinner, hfields, hkeys, hfield⟩ := inner_eq hplaces hname
  have hwhole : vars.lookup (Place.comparedSection name) = none := by
    rw [lookup_eq_none_iff_not_mem]
    intro hmem
    obtain ⟨x, hx, heq⟩ := List.mem_map.1 hmem
    obtain ⟨p, hp, hxp, -⟩ := hplaces x hx (heq ▸ Place.start_comparedSection name)
    exact Place.comparedSection_ne_comparedName name hname p hp (heq ▸ hxp)
  have hrenamed : renamed {} (Place.keysOf name) (.mapping fields) = .mapping fields := by
    have hsame : (fields.map fun f => (((Place.keysOf name).find? fun k =>
        Text.inSmall k == Text.inSmall f.1).getD f.1, f.2)) = fields := by
      refine (List.map_congr_left fun f hf => ?_).trans (List.map_id fields)
      rw [Place.find_keysOf name hname f.1 (hkeys f hf)]
      rfl
    calc renamed {} (Place.keysOf name) (.mapping fields)
        = Datum.ofFields (fields.map fun f => (((Place.keysOf name).find? fun k =>
            Text.inSmall k == Text.inSmall f.1).getD f.1, f.2)) := rfl
      _ = .mapping fields := by rw [hsame, Datum.ofFields_of_distinct hfields]
  refine ⟨fields, ?_, fun p hp hpn => ?_⟩
  · have hlook : (byName {} env).lookup (compared {} (({} : VariableForm).start ++ name)) = none := by
      rw [hvars, ← hwhole, ← Place.inSmall_section name hname]
      rfl
    rw [sectionOf, hlook, hvars]
    simp only [hinner, Except.map, hrenamed]
    rfl
  · rw [hfield p hp hpn, lookup_reverse hdistinct, hlookup p hp]

end VariableForm

end StreamCheck.Settings
