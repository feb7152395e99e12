import ConferenceBadge.Service.Basic

/-!
The keys of a badge's tasks: idle detection and the tasks of services.
-/
namespace ConferenceBadge

/-- The key of a task of a badge. -/
inductive Key where
  | power
  | service (task : Service.TaskKey)
deriving DecidableEq

instance : ToString Key where
  toString
    | .power => "Power"
    | .service task => s!"Service({task})"

end ConferenceBadge
