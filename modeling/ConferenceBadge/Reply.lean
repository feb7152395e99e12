import ConferenceBadge.Log

/-!
Replies: what an operation on a state gives. Operations run one after the other by `andThen`, which
keeps what they note in order; the grouping does not matter (`andThen_assoc`).
-/
namespace ConferenceBadge

/-- What an operation gives: an answer, the state after it and the lines it noted. -/
structure Reply (σ α : Type) where
  answer : α
  state : σ
  log : List Log.Line

namespace Reply

variable {σ τ ν α β γ : Type}

/-- Goes on from an answer and a state; the lines noted before come first. -/
def andThen (r : Reply σ α) (next : α → σ → Reply τ β) : Reply τ β :=
  let last := next r.answer r.state
  { last with log := r.log ++ last.log }

@[simp] theorem silent_andThen (a : α) (s : σ) (next : α → σ → Reply τ β) :
    (Reply.mk a s []).andThen next = next a s := rfl

theorem andThen_assoc (r : Reply σ α) (f : α → σ → Reply τ β) (g : β → τ → Reply ν γ) :
    (r.andThen f).andThen g = r.andThen fun a s => (f a s).andThen g := by
  simp only [andThen, List.append_assoc]

end Reply
end ConferenceBadge
