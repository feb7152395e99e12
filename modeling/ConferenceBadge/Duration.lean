/-!
Lengths of time in whole nanoseconds, up to a longest one that no sum exceeds: a sum stops at the
longest duration and a difference stops at zero.
-/
namespace ConferenceBadge

/-- The nanoseconds of the longest duration: one less than `2 ^ 64` seconds. -/
def Duration.maxNanos : Nat := 18446744073709551615999999999

/-- A length of time, counted in nanoseconds. -/
structure Duration where
  nanos : Nat
  nanos_le : nanos ≤ Duration.maxNanos
deriving DecidableEq

namespace Duration

/-- So many nanoseconds, or the longest duration where that is less. -/
def ofNanos (n : Nat) : Duration := ⟨min n maxNanos, Nat.min_le_right n maxNanos⟩

def ofMillis (n : Nat) : Duration := ofNanos (n * 1000000)

def ofSeconds (n : Nat) : Duration := ofNanos (n * 1000000000)

def zero : Duration := ⟨0, Nat.zero_le _⟩

def longest : Duration := ⟨maxNanos, Nat.le_refl _⟩

/-- The whole milliseconds in a duration. -/
def millis (d : Duration) : Nat := d.nanos / 1000000

/-- The whole microseconds in a duration. -/
def micros (d : Duration) : Nat := d.nanos / 1000

/-- The sum, or the longest duration where the sum exceeds it. -/
def add (a b : Duration) : Duration := ofNanos (a.nanos + b.nanos)

/-- The difference, or zero where `b` is longer than `a`. -/
def sub (a b : Duration) : Duration :=
  ⟨a.nanos - b.nanos, Nat.le_trans (Nat.sub_le _ _) a.nanos_le⟩

instance : Inhabited Duration := ⟨zero⟩
instance : Add Duration := ⟨add⟩
instance : Sub Duration := ⟨sub⟩
instance : LT Duration := ⟨fun a b => a.nanos < b.nanos⟩
instance : LE Duration := ⟨fun a b => a.nanos ≤ b.nanos⟩
instance (a b : Duration) : Decidable (a < b) := inferInstanceAs (Decidable (a.nanos < b.nanos))
instance (a b : Duration) : Decidable (a ≤ b) := inferInstanceAs (Decidable (a.nanos ≤ b.nanos))
instance : Min Duration := minOfLe
instance : Max Duration := maxOfLe

/-- The length in whole milliseconds, as log lines and console lines show it. -/
def text (d : Duration) : String := toString d.millis ++ "ms"

@[ext] theorem ext {a b : Duration} (same : a.nanos = b.nanos) : a = b := by
  cases a; cases b; cases same; rfl

@[simp] theorem nanos_ofNanos (n : Nat) : (ofNanos n).nanos = min n maxNanos := rfl

@[simp] theorem nanos_zero : zero.nanos = 0 := rfl

@[simp] theorem nanos_add (a b : Duration) : (a + b).nanos = min (a.nanos + b.nanos) maxNanos := rfl

@[simp] theorem nanos_sub (a b : Duration) : (a - b).nanos = a.nanos - b.nanos := rfl

theorem lt_iff {a b : Duration} : a < b ↔ a.nanos < b.nanos := Iff.rfl

theorem le_iff {a b : Duration} : a ≤ b ↔ a.nanos ≤ b.nanos := Iff.rfl

end Duration
end ConferenceBadge
