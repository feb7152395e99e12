import ConferenceBadge.Reply
import ConferenceBadge.Task

/-!
Task registries: what may be asked of one and how it answers. Between ticks the scheduler itself is
the registry; while a tick is in progress the pass over its tasks is.
-/
namespace ConferenceBadge

/-- Why a task was not registered. -/
inductive RegistryError where
  /-- every place is taken -/
  | registryFull
  /-- the tick in progress cannot hold another request -/
  | changesetFull
deriving DecidableEq

def RegistryError.message : RegistryError → String
  | registryFull => "task registry full"
  | changesetFull => "too many registry changes in one tick"

/-- What may be asked of a task registry. -/
inductive Request (κ : Type) where
  /-- register a task that is due once the target has passed -/
  | add (key : κ) (target : Duration) (visibility : Visibility)
  /-- give a task a new target and start its waiting over -/
  | update (handle : Handle) (target : Duration)
  /-- remove a task -/
  | delete (handle : Handle)
  /-- is there a task with this handle? -/
  | contains (handle : Handle)
  /-- how long until the next visible task is due? -/
  | idleTime
deriving DecidableEq

/-- The kind of answer each request gets. -/
@[reducible] def Request.Answer {κ : Type} : Request κ → Type
  | add .. => Except RegistryError Handle
  | update .. | delete .. | contains .. => Bool
  | idleTime => IdleTime

/-- A registry: who answers requests from a state. -/
abbrev Registry (κ σ : Type) : Type := (q : Request κ) → σ → Reply σ q.Answer

/-- A registry without tasks and without room for any. -/
def Registry.absent : Registry Empty Unit
  | .add .., s => ⟨.error .registryFull, s, []⟩
  | .update .., s | .delete _, s | .contains _, s => ⟨false, s, []⟩
  | .idleTime, s => ⟨.forever, s, []⟩

end ConferenceBadge
