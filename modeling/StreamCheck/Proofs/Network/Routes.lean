import StreamCheck.Proofs.Network.Instances
import StreamCheck.Proofs.Network.Producers

/-! Compilation keeps the wiring. Through the arguments of nested instances and the outputs that groups
pass on, each input leads to the producer that the graphs themselves give for it. -/

namespace StreamCheck.Network
open Smv Workspace

theorem address_cons (group : Node) (place : List Node) :
    address (group :: place) = address place ++ [group.id] := by
  simp [address]

/-! ### Places in a model -/

namespace Workspace
variable {w : Workspace} {z : Sizes} {m : Model} {g around : GraphId} {place : List Node}
  {supply : Supply} {fuel : Nat} {parts : List Instance} {n : Node}

/-- The instances of a model at a place are those that the graph there is compiled to, and the module
around declares them. -/
structure Placed (w : Workspace) (z : Sizes) (m : Model) (place : List Node) (around : GraphId)
    (supply : Supply) (fuel : Nat) (parts : List Instance) : Prop where
  inside : Instance.inside? m.parts (address place) = some parts
  declared : ∀ k i, parts.find? (·.id == k) = some i →
    m.arguments? (address place) k = some i.arguments
  compiled : w.instances z fuel around supply = .ok parts
  valid : w.validateWithin fuel around = .ok ()

structure Stands (w : Workspace) (z : Sizes) (m : Model) (place : List Node) (around : GraphId)
    (supply : Supply) (fuel : Nat) (n : Node) (i : Instance) : Prop where
  instance?_eq : m.instance? (address place) n.id = some i
  declared : m.arguments? (address place) n.id = some i.arguments
  compiled : instanceOf w z fuel (w.graph around) supply n = .ok i
  valid : w.validateWithin (fuel + 1) around = .ok ()
  member : n ∈ (w.graph around).nodes

theorem Placed.exists_stands (h : Placed w z m place around supply fuel parts)
    (hdistinct : ((w.graph around).nodes.map Node.id).Nodup) (hn : n ∈ (w.graph around).nodes) :
    ∃ fuel' i, fuel = fuel' + 1 ∧ Stands w z m place around supply fuel' n i := by
  cases fuel with
  | zero => nomatch h.compiled
  | succ fuel =>
    obtain ⟨i, hfind, hi⟩ := exists_find?_of_forall₂ (mapM_eq_ok h.compiled)
      (fun n i hi => (instanceOf_eq_ok hi).1) hdistinct hn
    refine ⟨fuel, i, rfl, ?_, h.declared _ i hfind, hi, h.valid, hn⟩
    rw [Model.instance?, h.inside]
    exact hfind

theorem Placed.parts_ne_nil (h : Placed w z m place around supply fuel parts)
    (hn : n ∈ (w.graph around).nodes) : parts ≠ [] := by
  rintro rfl
  cases fuel with
  | zero => nomatch h.compiled
  | succ fuel =>
    rw [List.forall₂_nil_right_iff.1 (mapM_eq_ok h.compiled)] at hn
    nomatch hn

theorem Stands.placed {i : Instance} (h : Stands w z m place around supply fuel n i) {inner : GraphId}
    (hinner : n.inner? = some inner) :
    Placed w z m (n :: place) inner (groupSupply (w.graph inner)) fuel i.parts := by
  obtain ⟨-, -, -, -, hgroup⟩ := instanceOf_eq_ok h.compiled
  obtain ⟨hparts, hmodule⟩ := hgroup inner hinner
  refine ⟨?_, fun k j hj => ?_, hparts, (validateWithin_group h.valid h.member hinner).2⟩
  · have hfind := h.instance?_eq
    rw [Model.instance?] at hfind
    obtain ⟨parts, hparts, hfind⟩ := Option.bind_eq_some_iff.1 hfind
    rw [address_cons, Instance.inside?_append, hparts]
    simp [Instance.inside?, hfind]
  · rw [address_cons, Model.arguments?_append h.instance?_eq, hmodule]
    exact findSome?_declaration hj

def supplyAt (w : Workspace) (around : GraphId) : List Node → Supply
  | [] => pipeSupply (w.graph around)
  | _ :: _ => groupSupply (w.graph around)

theorem exists_placed (hm : w.compile z g = .ok m)
    (hdistinct : ∀ g, ((w.graph g).nodes.map Node.id).Nodup) (h : w.Within g place around) :
    ∃ fuel parts, Placed w z m place around (w.supplyAt around place) fuel parts := by
  induction h with
  | top =>
    obtain ⟨hvalid, hparts, hmain⟩ := compile_eq_ok hm
    exact ⟨w.depth, m.parts, rfl, fun k i hi => arguments?_main hmain hi, hparts, hvalid⟩
  | inside _ hmem hinner ih =>
    obtain ⟨fuel, parts, hplaced⟩ := ih
    obtain ⟨fuel', i, -, hi⟩ := hplaced.exists_stands (hdistinct _) hmem
    exact ⟨fuel', i.parts, hi.placed hinner⟩

/-- Both names of a wire lead to those of another. -/
def Carries (m : Model) (a b : Wire) : Prop := m.Resolves a.1 b.1 ∧ m.Resolves a.2 b.2

end Workspace

namespace Session
variable {s : Session} {z : Sizes} {m : Model} {g around : GraphId} {place : List Node}
  {supply : Supply} {fuel : Nat} {parts : List Instance} {p : Port}

theorem Sound.exists_drives (h : s.Sound) (hplaced : Placed s.workspace z m place around supply fuel parts)
    (hp : p.node ∈ (s.workspace.graph around).nodes) (hlt : p.index < p.node.outputArity) :
    ∃ place' p', s.workspace.Drives place p place' p' ∧
      Carries m (Wire.beneath (address place) (outputWire p)) (Producer.output place' p').wire := by
  -- by the nesting that compilation still allows: each group on the way stands one level further in
  induction fuel generalizing place around supply parts p with
  | zero => nomatch hplaced.compiled
  | succ fuel ih =>
    obtain ⟨_, i, hfuel, hi⟩ := hplaced.exists_stands (h.fed around).distinct hp
    obtain rfl := Nat.succ.inj hfuel
    obtain ⟨hvalue, hfire⟩ := argument?_output hi.compiled p.index
    cases hinner : p.node.inner? with
    | none =>
      refine ⟨place, p, .leaf hinner, .done ?_, .done ?_⟩
      · exact (Model.standsFor?_passed hi.instance?_eq hi.declared hvalue).trans
          (by rw [passed?_leaf hi.compiled hinner]; rfl)
      · exact (Model.standsFor?_passed hi.instance?_eq hi.declared hfire).trans
          (by rw [passed?_leaf hi.compiled hinner]; rfl)
    | some inner =>
      obtain ⟨q, hq⟩ := (validateWithin_group hi.valid hp hinner).1 p.index hlt
      have hexit := mem_of_lookup_eq_some hq
      obtain ⟨hmem, hqlt⟩ := h.association_member .output hexit
      have hinside := hi.placed hinner
      obtain ⟨place', p', hdrives, hcarries⟩ := ih hinside hmem hqlt
      refine ⟨place', p', .group hinner hexit hdrives, ?_⟩
      rw [address_cons] at hcarries
      obtain ⟨hpassValue, hpassFire⟩ :=
        passed?_output hi.compiled hinner (hinside.parts_ne_nil hmem) hlt hq
      refine ⟨.step ?_ hcarries.1, .step ?_ hcarries.2⟩
      · exact (Model.standsFor?_passed hi.instance?_eq hi.declared hvalue).trans (by rw [hpassValue]; rfl)
      · exact (Model.standsFor?_passed hi.instance?_eq hi.declared hfire).trans (by rw [hpassFire]; rfl)

theorem Sound.exists_feeds_or_supply (h : s.Sound)
    (hplaced : Placed s.workspace z m place around supply fuel parts)
    (hplace : s.workspace.Within g place around) (hp : p.node ∈ (s.workspace.graph around).nodes)
    (hlt : p.index < p.node.inputArity) :
    (∃ pr, s.workspace.Feeds g place p pr ∧
      Carries m (Wire.beneath (address place) (inputWire p)) pr.wire) ∨
    ∃ wire, supply.lookup p.slot = some wire ∧ ∀ t, Carries m (Wire.beneath (address place) wire) t →
      Carries m (Wire.beneath (address place) (inputWire p)) t := by
  obtain ⟨_, i, rfl, hi⟩ := hplaced.exists_stands (h.fed around).distinct hp
  obtain ⟨wire, hwire, hvalue, hfire⟩ := argument?_input hi.compiled hlt
  have hstep t (ht : Carries m (Wire.beneath (address place) wire) t) :
      Carries m (Wire.beneath (address place) (inputWire p)) t :=
    ⟨.step (Model.standsFor?_argument hi.instance?_eq hi.declared hvalue) ht.1,
      .step (Model.standsFor?_argument hi.instance?_eq hi.declared hfire) ht.2⟩
  obtain ⟨c, hc, rfl⟩ | hsupply := feed_eq_ok hwire
  · have hwired := (h.fed around).wired
    obtain ⟨hc, hslot⟩ := (hwired .input).incoming?_eq_some hc
    have hsource := (hwired .output).member _ (Graph.connection_mem_uses _ .output hc)
    have hdest := (hwired .input).member _ (Graph.connection_mem_uses _ .input hc)
    obtain ⟨place', p', hdrives, hcarries⟩ := h.exists_drives hplaced hsource.1 hsource.2
    have hpc : c.destination = p := h.port_eq hdest.1 hp hslot
    exact .inl ⟨_, .connection hplace hc hpc hdrives, hstep _ hcarries⟩
  · exact .inr ⟨wire, hsupply, hstep⟩

theorem Sound.exists_feeds (h : s.Sound) (hm : s.workspace.compile z g = .ok m)
    (hplace : s.workspace.Within g place around) (hp : p.node ∈ (s.workspace.graph around).nodes)
    (hlt : p.index < p.node.inputArity) :
    ∃ pr, s.workspace.Feeds g place p pr ∧
      Carries m (Wire.beneath (address place) (inputWire p)) pr.wire := by
  have hdistinct g := (h.fed g).distinct
  -- by the chain of groups: what a group is supplied with are its own parameters, one place further out
  induction hplace generalizing p with
  | top =>
    obtain ⟨fuel, parts, hplaced⟩ := exists_placed hm hdistinct .top
    obtain hfeeds | ⟨wire, hwire, hcarries⟩ := h.exists_feeds_or_supply hplaced .top hp hlt
    · exact hfeeds
    · obtain ⟨e, he, hentry⟩ := List.mem_map.1 (mem_of_lookup_eq_some hwire)
      obtain ⟨hslot, rfl⟩ := Prod.mk.inj hentry
      have hexternal := ((h.fed g).wired .input).member _ (Graph.external_mem_uses _ .input he)
      have hport : e.port = p := h.port_eq hexternal.1 hp hslot
      obtain ⟨-, -, hmain⟩ := compile_eq_ok hm
      refine ⟨.pipe e.pipe, .pipe he hport, hcarries _ ⟨.done ?_, .done ?_⟩⟩
      · exact assigned?_eq_none hmain (fun _ hx => nomatch hx) (fun _ hx => nomatch hx)
      · exact assigned?_eq_none hmain (fun _ hx => nomatch hx) (fun _ hx => nomatch hx)
  | @inside outer around inner group hplace hmem hinner ih =>
    have hplace' := hplace.inside hmem hinner
    obtain ⟨fuel, parts, hplaced⟩ := exists_placed hm hdistinct hplace'
    obtain hfeeds | ⟨wire, hwire, hcarries⟩ := h.exists_feeds_or_supply hplaced hplace' hp hlt
    · exact hfeeds
    · obtain ⟨⟨i, q⟩, hq, hentry⟩ := List.mem_map.1 (mem_of_lookup_eq_some hwire)
      obtain ⟨hslot, rfl⟩ := Prod.mk.inj hentry
      have hqmem := h.association_member (g := inner) .input hq
      obtain rfl : q = p := h.port_eq hqmem.1 hp hslot
      have hgroup : group ∈ s.groupsAround inner :=
        h.groupsAround_eq hplace' ▸ List.mem_singleton_self group
      have hilt : i < group.inputArity := (h.fed inner).declared group hgroup .input _ hq
      obtain ⟨pr, hfeeds, hpr⟩ := ih (p := ⟨group, i⟩) hmem hilt
      refine ⟨pr, .group hinner hq hfeeds, hcarries _ ?_⟩
      rw [address_cons]
      simpa [Wire.beneath, Ref.beneath, Ref.own, Ref.within, inputWire] using hpr

/-- After any calls on graphs and groups, compilation keeps the wiring. Each input of a node at any place
of a compiled graph has exactly one producer, and the two arguments that the node's instance is given
for it lead to that producer's value and firing. So do the pipes that leave the graph lead to the one
output of a leaf that drives them. -/
theorem compile_keeps_wiring (cs : List Call) (z : Sizes) (g : GraphId) (m : Model)
    (hm : (({} : Session).performAll cs).workspace.compile z g = .ok m) :
    let w := (({} : Session).performAll cs).workspace
    (∀ place around n, w.Within g place around → n ∈ (w.graph around).nodes →
      ∀ j, j < n.inputArity → ∃ pr, (∀ pr', w.Feeds g place ⟨n, j⟩ pr' ↔ pr' = pr) ∧
        m.Resolves ⟨address place ++ [n.id], .inValue j⟩ pr.wire.1 ∧
        m.Resolves ⟨address place ++ [n.id], .inFire j⟩ pr.wire.2) ∧
    ∀ e ∈ (w.graph g).outputs, ∃ place p,
      (∀ place' p', w.Drives [] e.port place' p' ↔ place' = place ∧ p' = p) ∧
        m.Resolves (.own (.pipeOutValue e.pipe)) (Producer.output place p).wire.1 ∧
        m.Resolves (.own (.pipeOutFire e.pipe)) (Producer.output place p).wire.2 := by
  intro w
  have h : (({} : Session).performAll cs).Sound := sound_performAll cs
  constructor
  · intro place around n hplace hn j hj
    obtain ⟨pr, hfeeds, hvalue, hfire⟩ := h.exists_feeds (p := ⟨n, j⟩) hm hplace hn hj
    refine ⟨pr, fun pr' => ⟨fun hpr' => h.feeds_unique hplace hpr' hfeeds, ?_⟩, hvalue, hfire⟩
    rintro rfl
    exact hfeeds
  · intro e he
    obtain ⟨fuel, parts, hplaced⟩ := exists_placed hm (fun g => (h.fed g).distinct) .top
    have hexternal := ((h.fed g).wired .output).member _ (Graph.external_mem_uses _ .output he)
    obtain ⟨place, p, hdrives, hvalue, hfire⟩ := h.exists_drives hplaced hexternal.1 hexternal.2
    obtain ⟨-, -, hmain⟩ := compile_eq_ok hm
    have hpipes : ((w.graph g).outputs.map External.pipe).Nodup :=
      (h.piped.increasing.sublist (h.piped.ordered g .output)).imp Nat.ne_of_lt
    obtain ⟨hassignValue, hassignFire⟩ := assigned?_output hmain hpipes he
    refine ⟨place, p, fun place' p' => ⟨fun hd => h.drives_unique hd hdrives, ?_⟩,
      .step hassignValue hvalue, .step hassignFire hfire⟩
    rintro ⟨rfl, rfl⟩
    exact hdrives

/-- A passthrough in a group, fed by a pipe, and another one behind the group. -/
def relay : List Call :=
  let group : Node := ⟨1, .group 1 1 1⟩
  let inner : Node := ⟨2, .passthrough .integer⟩
  let outer : Node := ⟨3, .passthrough .integer⟩
  [.newGraph 4 2, .create (.group 4 2 1 1), .create (.passthrough .integer),
    .create (.passthrough .integer), .add 1 [inner], .associate group .input 0 inner 0,
    .associate group .output 0 inner 0, .add 0 [group, outer], .expose 0 .input group 0,
    .connect 0 group 0 outer 0, .expose 0 .output outer 0]

theorem compile_keeps_wiring_of_relay :
    ∃ m, (({} : Session).performAll relay).workspace.compile ⟨4, 2⟩ 0 = .ok m ∧
      m.Resolves ⟨[1, 2], .inValue 0⟩ (.own (.pipeInValue 0)) ∧
      m.Resolves ⟨[3], .inFire 0⟩ ⟨[1, 2], .outFire 0⟩ := by
  obtain ⟨m, hm⟩ := exists_eq_ok (x := (({} : Session).performAll relay).workspace.compile ⟨4, 2⟩ 0)
    (by decide +kernel)
  obtain ⟨hfed, -⟩ := compile_keeps_wiring relay ⟨4, 2⟩ 0 m hm
  refine ⟨m, hm, ?_, ?_⟩
  · obtain ⟨pr, hpr, hvalue, -⟩ := hfed [⟨1, .group 1 1 1⟩] 1 ⟨2, .passthrough .integer⟩
      (Within.top.inside (by decide +kernel) rfl) (by decide +kernel) 0 (by decide)
    have hpipe := (hpr (.pipe 0)).1 (.group rfl (i := 0) (by decide +kernel)
      (.pipe (e := ⟨0, ⟨1, .group 1 1 1⟩, 0⟩) (by decide +kernel) rfl))
    rw [← hpipe] at hvalue
    exact hvalue
  · obtain ⟨pr, hpr, -, hfire⟩ := hfed [] 0 ⟨3, .passthrough .integer⟩ .top (by decide +kernel) 0
      (by decide)
    have houtput := (hpr (.output [⟨1, .group 1 1 1⟩] ⟨⟨2, .passthrough .integer⟩, 0⟩)).1
      (.connection .top
        (c := ⟨⟨⟨1, .group 1 1 1⟩, 0⟩, ⟨⟨3, .passthrough .integer⟩, 0⟩⟩) (by decide +kernel) rfl
        (.group rfl (q := ⟨⟨2, .passthrough .integer⟩, 0⟩) (by decide +kernel) (.leaf rfl)))
    rw [← houtput] at hfire
    exact hfire

end Session

end StreamCheck.Network
