import StreamCheck.Pipeline.Catalog
import StreamCheck.Subject.Basic

/-! Caches of pipelines, and libraries of models over them. A cache keeps what was built for a key, also
that nothing could be; several users may share one, so caches live in an archive and go by number. -/

namespace StreamCheck.Pipeline
open Network

/-- What was built for each key, in the order of the first requests. -/
structure Cache where
  builds : List (Key × Option Assembly) := []
deriving DecidableEq, Repr, Inhabited

namespace Cache

def find? (c : Cache) (key : Key) : Option (Option Assembly) :=
  (c.builds.find? fun b => b.1.matches? key).map (·.2)

def contains (c : Cache) (config : Configuration) : Bool :=
  (c.find? (Key.ofConfiguration config)).isSome

def size (c : Cache) : Nat := c.builds.length

def insert (c : Cache) (key : Key) (a : Option Assembly) : Cache := ⟨c.builds ++ [(key, a)]⟩

end Cache

abbrev CacheId := Nat

structure Archive where
  workspace : Workspace := {}
  caches : List Cache := []
deriving Repr, Inhabited

abbrev Keep := EStateM Fault Archive

namespace Keep

def build {α : Type} (b : Build α) : Keep α := fun a =>
  match b.run a.workspace with
  | .ok x w => .ok x { a with workspace := w }
  | .error e w => .error e { a with workspace := w }

def cache (c : CacheId) : Keep Cache := do return (← get).caches.getD c default

def newCache : Keep CacheId := do
  let a ← get
  set { a with caches := a.caches ++ [({ builds := [] } : Cache)] }
  return a.caches.length

/-- What a cache holds for a configuration; the first request builds it and freezes the graph. -/
def getOrBuild (c : CacheId) (config : Configuration) : Keep (Option Assembly) := do
  let key := Key.ofConfiguration config
  match (← cache c).find? key with
  | some found => return found
  | none =>
    let built ← build (Catalog.assemble config)
    if let some assembly := built then build (Build.freeze assembly.graph)
    modify fun a => { a with caches := a.caches.modify c (·.insert key built) }
    return built

end Keep

structure Library where
  cache : CacheId
deriving DecidableEq, Repr, Inhabited

namespace Library

def fresh : Keep Library := do return ⟨← Keep.newCache⟩

/-- A library that is offered a cache: it takes one that holds something, and makes its own in place
of an empty one. -/
def ofCache (c : CacheId) : Keep Library := do
  if (← Keep.cache c).size = 0 then fresh else return ⟨c⟩

def get (l : Library) (config : Configuration) : Keep (Option Subject) := do
  if config.query = Query.dummy.name then return some (.counter config.queue config.domain)
  match ← Keep.getOrBuild l.cache config with
  | none => return none
  | some a =>
    let compiled ← Keep.build <| Build.ask fun w =>
      CompiledGraph.compile w config.query ⟨config.domain, config.queue⟩ a.graph a.shape
    return some (.network compiled)

end Library

end StreamCheck.Pipeline
