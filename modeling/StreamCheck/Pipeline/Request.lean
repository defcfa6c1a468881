import StreamCheck.Pipeline.Archive

/-! Requests: what is asked of a cache, at the cache itself or through a library, and what the catalog is
asked for on the way. -/

namespace StreamCheck.Pipeline
open Network

def Archive.cache (a : Archive) (c : CacheId) : Cache := a.caches.getD c default

/-- Steps that keep a record of every configuration that the catalog assembles, and of what came of it. -/
abbrev Watch := StateT (List (Configuration × Option Assembly)) Keep

def Watch.assemble (config : Configuration) : Watch (Option Assembly) := do
  let built ← Keep.build (Catalog.assemble config)
  modify (· ++ [(config, built)])
  return built

/-- A request at a cache, what it was answered, and what the catalog assembled meanwhile. -/
structure Request where
  config : Configuration
  answer : Option Assembly
  assembled : List (Configuration × Option Assembly)
deriving DecidableEq, Repr, Inhabited

namespace Keep

/-- What `getOrBuild` does, with the catalog asked in a way of its own. -/
def getOrBuildBy {m : Type → Type} [Monad m] [MonadLiftT Keep m]
    (assemble : Configuration → m (Option Assembly)) (c : CacheId) (config : Configuration) :
    m (Option Assembly) := do
  let key := Key.ofConfiguration config
  match (← (cache c : Keep Cache)).find? key with
  | some found => return found
  | none =>
    let built ← assemble config
    if let some assembly := built then (build (Build.freeze assembly.graph) : Keep Unit)
    (modify fun a => { a with caches := a.caches.modify c (·.insert key built) } : Keep Unit)
    return built

theorem getOrBuildBy_build : getOrBuildBy (fun config => build (Catalog.assemble config)) = getOrBuild := rfl

/-- `getOrBuild`, with what the catalog assembled meanwhile. -/
def request (c : CacheId) (config : Configuration) : Keep Request := do
  let (answer, assembled) ← (getOrBuildBy Watch.assemble c config).run []
  return ⟨config, answer, assembled⟩

end Keep

/-- One use of a cache: a model from a library, or a pipeline from the cache itself. -/
inductive Use where
  | model (library : Library) (config : Configuration)
  | pipeline (config : Configuration)
deriving DecidableEq, Repr, Inhabited

inductive Served where
  | model (m : Option Subject)
  | pipeline (a : Option Assembly)
deriving Repr, Inhabited

namespace Use

def library? : Use → Option Library
  | model l _ => some l
  | pipeline _ => none

def perform (c : CacheId) : Use → Keep Served
  | model l config => return .model (← l.get config)
  | pipeline config => return .pipeline (← Keep.getOrBuild c config)

end Use

end StreamCheck.Pipeline
