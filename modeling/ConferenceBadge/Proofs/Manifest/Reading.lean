import ConferenceBadge.Proofs.Manifest.Known

/-!
What the reader makes of JSON. It reads a text part by part. A value that it skips leaves what was read
as it is (`skips_value`), whatever is nested in it; an object keeps its known members one after the
other, or is refused at the first that does not fit (`reads_members`). The proof follows the grammar. A
value that is neither string, list nor object has no end of its own: the reader rests in it until a
delimiter comes (`Rests`).
-/
namespace ConferenceBadge.Manifest.Reader
open Json

/-- The reader after a part of the text. -/
def on (r : Reader) (text : List Char) : Except ReadError Reader := text.foldlM step r

theorem on_append (r : Reader) (first second : List Char) :
    r.on (first ++ second) = (do (← r.on first).on second) := List.foldlM_append

theorem on_cons (r : Reader) (c : Char) (rest : List Char) : r.on (c :: rest) = (do (← r.step c).on rest) := rfl

theorem on_of_step {r after : Reader} {c : Char} (stepped : r.step c = .ok after) (rest : List Char) :
    r.on (c :: rest) = after.on rest := by
  rw [on_cons, stepped]
  rfl

theorem on_of_on {r after : Reader} {first : List Char} (read : r.on first = .ok after) (second : List Char) :
    r.on (first ++ second) = after.on second := by
  rw [on_append, read]
  rfl

/-- A value has been read that leaves the reader so, and the reader may still be in it. -/
inductive Rests (r : Reader) : Reader → Prop
  | ended : Rests r (r.expect .next)
  | unquoted : Rests r (r.expect .delimiter)
  | digits (n : Nat) : Rests r (r.expect (.digits n))

/-- A part of the text is refused, or leads to a goal with what was read so far. -/
def Leads (before : Reader) (text : List Char) (result : Option Seen) (goal : Seen → Reader → Prop) : Prop :=
  match result with
  | some seen => ∃ after, before.on text = .ok after ∧ goal seen after
  | none => ∃ cause, before.on text = .error cause

namespace Leads

variable {before : Reader} {text more : List Char} {result : Option Seen} {goal goal' : Seen → Reader → Prop}

theorem of_refused {cause : ReadError} (refused : before.on text = .error cause) (more : List Char) :
    Leads before (text ++ more) none goal := ⟨cause, by rw [on_append, refused]; rfl⟩

theorem of_step {after : Reader} {c : Char} (stepped : before.step c = .ok after)
    (rest : Leads after text result goal) :
    Leads before (c :: text) result goal := by
  cases result with
  | some seen =>
    obtain ⟨last, read, reached⟩ := rest
    exact ⟨last, (on_of_step stepped text).trans read, reached⟩
  | none =>
    obtain ⟨cause, refused⟩ := rest
    exact ⟨cause, (on_of_step stepped text).trans refused⟩

theorem of_on {after : Reader} (read : before.on more = .ok after) (rest : Leads after text result goal) :
    Leads before (more ++ text) result goal := by
  cases result with
  | some seen =>
    obtain ⟨last, there, reached⟩ := rest
    exact ⟨last, (on_of_on read text).trans there, reached⟩
  | none =>
    obtain ⟨cause, refused⟩ := rest
    exact ⟨cause, (on_of_on read text).trans refused⟩

theorem of_eq {before' : Reader} {text' : List Char} (same : before.on text = before'.on text')
    (leads : Leads before' text' result goal) : Leads before text result goal := by
  unfold Leads at leads ⊢
  rwa [same]

theorem mono (leads : Leads before text result goal) (weaker : ∀ seen after, goal seen after → goal' seen after) :
    Leads before text result goal' := by
  cases result with
  | some seen =>
    obtain ⟨after, read, reached⟩ := leads
    exact ⟨after, read, weaker seen after reached⟩
  | none => exact leads

/-- One part of the text is read after another. -/
theorem andThen {next : Seen → Option Seen} (first : Leads before text result goal)
    (rest : ∀ seen after, goal seen after → Leads after more (next seen) goal') :
    Leads before (text ++ more) (result.bind next) goal' := by
  cases result with
  | some seen =>
    obtain ⟨after, read, reached⟩ := first
    exact of_on read (rest seen after reached)
  | none =>
    obtain ⟨cause, refused⟩ := first
    exact of_refused refused more

end Leads

/-! ### Blanks and delimiters -/

theorem on_blanks {r : Reader} (stays : ∀ b : Blank, r.step b.char = .ok r) (blanks : Blanks) :
    r.on blanks.text = .ok r := by
  induction blanks with
  | nil => rfl
  | cons b rest ih => exact (on_of_step (stays b) _).trans ih

theorem Rests.on_blanks {r before : Reader} (rests : Rests r before) (blanks : Blanks) :
    ∃ after, before.on blanks.text = .ok after ∧ Rests r after := by
  induction blanks generalizing before with
  | nil => exact ⟨before, rfl, rests⟩
  | cons b rest ih =>
    have blank : ∃ after, before.step b.char = .ok after ∧ Rests r after := by
      cases rests with
      | ended => exact ⟨_, by cases b <;> rfl, .ended⟩
      | unquoted => exact ⟨_, by cases b <;> rfl, .unquoted⟩
      | digits n => exact ⟨_, by cases b <;> rfl, .ended⟩
    obtain ⟨middle, stepped, still⟩ := blank
    obtain ⟨after, read, last⟩ := ih still
    exact ⟨after, (on_of_step stepped _).trans read, last⟩

/-- A delimiter ends the value. -/
theorem Rests.step_delimiter {r before : Reader} (rests : Rests r before) {c : Char}
    (delimiter : c ∈ [',', '\x7d', ']']) :
    before.step c = (r.expect .next).between c := by
  simp only [List.mem_cons, List.not_mem_nil, or_false] at delimiter
  rcases delimiter with rfl | rfl | rfl
  all_goals cases rests <;> rfl

/-- The reader at the end of an object or a list inside of these. -/
def leave (seen : Seen) (outer : List Frame) : Reader := (Reader.mk seen (.list false :: outer) .next).pop

theorem pop_eq {r : Reader} {frame : Frame} {outer : List Frame} (inside : r.frames = frame :: outer) :
    r.pop = leave r.seen outer := by
  obtain ⟨seen, frames, expecting⟩ := r
  obtain rfl : frames = frame :: outer := inside
  cases outer <;> rfl

theorem rests_leave (seen : Seen) (frame : Frame) (outer : List Frame) (e : Expecting) :
    Rests ⟨seen, frame :: outer, e⟩ (leave seen (frame :: outer)) := .ended

/-! ### Strings -/

/-- A reader that only waits for the quote that ends a string goes on to the end of what is written. -/
theorem on_letters (state : List Char → Bool → Reader) (steps : ∀ read escaped c, ¬ (c = '"' ∧ escaped = false) →
      (state read escaped).step c = .ok (state (c :: read) (c = '\\' && !escaped)))
    (letters : List Letter) (read : List Char) :
    (state read false).on (Letter.raw letters) = .ok (state ((Letter.raw letters).reverse ++ read) false) := by
  have one (read : List Char) (l : Letter) :
      (state read false).on l.text = .ok (state (l.text.reverse ++ read) false) := by
    -- Only a quote and a backslash matter outside of an escape, and nothing does right after a backslash.
    have next {read : List Char} {c : Char} (ordinary : c ≠ '"' ∧ c ≠ '\\') :
        (state read false).step c = .ok (state (c :: read) false) := by
      rw [steps read false c (fun quote => ordinary.1 quote.1)]
      simp [ordinary.2]
    have backslash (read : List Char) : (state read false).step '\\' = .ok (state ('\\' :: read) true) :=
      steps read false '\\' (by decide)
    have escaped (read : List Char) (c : Char) : (state read true).step c = .ok (state (c :: read) false) := by
      rw [steps read true c (by simp)]
      simp
    have hex (h : Hex) : h.1 ≠ '"' ∧ h.1 ≠ '\\' := by
      obtain ⟨c, allowed⟩ := h
      constructor
      · rintro rfl
        revert allowed
        decide
      · rintro rfl
        revert allowed
        decide
    cases l with
    | plain c allowed => exact on_of_step (next allowed.2) []
    | escape c allowed => exact (on_of_step (backslash read) _).trans (on_of_step (escaped _ c) [])
    | code first second third fourth =>
      rw [Letter.text, on_of_step (backslash read), on_of_step (escaped _ 'u'), on_of_step (next (hex first)),
        on_of_step (next (hex second)), on_of_step (next (hex third)), on_of_step (next (hex fourth))]
      rfl
  induction letters generalizing read with
  | nil => rfl
  | cons l rest ih =>
    have parts : Letter.raw (l :: rest) = l.text ++ Letter.raw rest := rfl
    rw [parts, on_of_on (one read l), ih, List.reverse_append, List.append_assoc]

theorem on_string (seen : Seen) (frames : List Frame) (letters : List Letter) :
    (Reader.mk seen frames (.string false)).on (Letter.raw letters ++ ['"']) = .ok ⟨seen, frames, .next⟩ := by
  have read := on_letters (fun _ escaped => Reader.mk seen frames (.string escaped))
    (by
      intro read escaped c inside
      have goes : (c = '"' && !escaped) = false := by simpa using inside
      simp only [step, goes, Bool.false_eq_true, ↓reduceIte]
      rfl) letters []
  rw [on_of_on read]
  rfl

theorem on_key (seen : Seen) (frames : List Frame) (letters : List Letter) :
    (Reader.mk seen frames (.key [] false)).on (Letter.raw letters) =
      .ok ⟨seen, frames, .key (Letter.raw letters).reverse false⟩ := by
  have read := on_letters (fun read escaped => Reader.mk seen frames (.key read escaped))
    (by
      intro read escaped c inside
      have goes : (c = '"' && !escaped) = false := by simpa using inside
      simp only [step, goes, Bool.false_eq_true, ↓reduceIte]
      rfl) letters []
  rwa [List.append_nil] at read

/-! ### Words and numbers -/

/-- A character of a value that has no end of its own. -/
def unquoted (c : Char) : Bool := !isSpace c && c ∉ ['"', '[', '\x7b', ',', '\x7d', ']']

/-- Such a value is skipped as a whole. -/
theorem skips_unquoted (seen : Seen) (frames : List Frame) {first : Char} {rest : List Char}
    (all : (first :: rest).all unquoted = true) :
    (Reader.mk seen frames (.value none)).on (first :: rest) = .ok ⟨seen, frames, .delimiter⟩ := by
  have begins : (Reader.mk seen frames (.value none)).step first = .ok ⟨seen, frames, .delimiter⟩ := by
    have plain : unquoted first = true := by simp_all
    simp only [unquoted, Bool.and_eq_true, Bool.not_eq_true', decide_eq_true_eq, List.mem_cons, List.not_mem_nil,
      or_false, not_or] at plain
    obtain ⟨noSpace, quote, list, object, comma, endObject, endList⟩ := plain
    simp [step, noSpace, stepSpaced, skippedValue, quote, list, object, comma, endObject, endList, expect]
  have goes : rest.all unquoted = true →
      (Reader.mk seen frames .delimiter).on rest = .ok ⟨seen, frames, .delimiter⟩ := by
    intro plain
    induction rest with
    | nil => rfl
    | cons c rest ih =>
      simp only [List.all_cons, Bool.and_eq_true, unquoted, decide_eq_true_eq, List.mem_cons, List.not_mem_nil,
        or_false, not_or] at plain
      obtain ⟨⟨-, -, -, -, comma, endObject, endList⟩, later⟩ := plain
      have stays : (Reader.mk seen frames .delimiter).step c = .ok ⟨seen, frames, .delimiter⟩ := by
        simp [step, comma, endObject, endList]
      rw [on_of_step stays]
      exact ih (by simp_all) later
  rw [on_of_step begins]
  simp only [List.all_cons, Bool.and_eq_true] at all
  exact goes all.2

theorem all_digits (digits : List Digit) : (digits.map Digit.char).all unquoted = true := by
  have one : ∀ d : Digit, unquoted d.char = true := by decide
  simp [one]

theorem all_number (n : Number) : n.text.all unquoted = true := by
  have digits (ds : Digits) : ds.text.all unquoted = true := all_digits (ds.first :: ds.rest)
  have whole : n.whole.text.all unquoted = true := by
    cases n.whole with
    | zero => decide
    | positive first rest => exact all_digits (first.succ :: rest)
  have fraction : (n.fraction.elim [] fun ds => '.' :: ds.text).all unquoted = true := by
    cases n.fraction with
    | none => rfl
    | some ds => simpa [show unquoted '.' = true by decide] using digits ds
  have exponent : (n.exponent.elim [] Exponent.text).all unquoted = true := by
    cases n.exponent with
    | none => rfl
    | some e =>
      have letter : unquoted (if e.capital then 'E' else 'e') = true := by cases e.capital <;> decide
      have sign : e.sign.text.all unquoted = true := by cases e.sign <;> decide
      simp only [Option.elim_some, Exponent.text, List.cons_append, List.all_cons, List.all_append, letter, sign, digits,
        Bool.and_self]
  have sign : (if n.negative then ['-'] else []).all unquoted = true := by cases n.negative <;> decide
  simp only [Number.text, Number.tail, List.all_append, sign, whole, fraction, exponent, Bool.and_self]

/-- A number begins with a minus sign or a digit. -/
theorem number_begins (n : Number) :
    ∃ c rest, n.text = c :: rest ∧ (c = '-' ∧ n.negative = true ∨ (∃ d : Digit, c = d.char) ∧ n.negative = false) := by
  cases negative : n.negative with
  | true => exact ⟨'-', n.whole.text ++ n.tail, by simp [Number.text, negative], .inl ⟨rfl, rfl⟩⟩
  | false =>
    cases whole : n.whole with
    | zero => exact ⟨'0', n.tail, by simp [Number.text, negative, whole, Whole.text], .inr ⟨⟨0, rfl⟩, rfl⟩⟩
    | positive first rest =>
      exact ⟨_, rest.map Digit.char ++ n.tail, by simp [Number.text, negative, whole, Whole.text],
        .inr ⟨⟨first.succ, rfl⟩, rfl⟩⟩

/-- The digits of a number so far have been read, and more of them may come unless it is zero. -/
def InNumber (frames : List Frame) (seen : Seen) (after : Reader) : Prop :=
  after = ⟨seen, frames, .next⟩ ∨ ∃ n, after = ⟨seen, frames, .digits n⟩

theorem number_le (n : Nat) (digits : List Digit) : n ≤ Digit.number n digits := by
  induction digits generalizing n with
  | nil => exact Nat.le_refl n
  | cons d rest ih =>
    have more := ih (n * 10 + d.val)
    rw [Digit.number, List.foldl_cons]
    rw [Digit.number] at more
    omega

/-- Digits are read as far as the number is not past the largest version. -/
theorem leads_digits (s : Seen) (frames : List Frame) {n : Nat} (few : n ≤ largestVersion) (digits : List Digit) :
    Leads ⟨{ s with apiVersion := some n }, frames, .digits n⟩ (digits.map Digit.char)
      (if Digit.number n digits ≤ largestVersion then some { s with apiVersion := some (Digit.number n digits) }
        else none) (InNumber frames) := by
  induction digits generalizing n with
  | nil =>
    rw [show Digit.number n [] = n from rfl, if_pos few]
    exact ⟨_, rfl, .inr ⟨n, rfl⟩⟩
  | cons d rest ih =>
    have value : d.char.toNat - '0'.toNat = d.val := by
      revert d
      decide
    have isDigit : d.char.isDigit = true := by
      revert d
      decide
    have same : Digit.number n (d :: rest) = Digit.number (n * 10 + d.val) rest := rfl
    by_cases more : n * 10 + d.val ≤ largestVersion
    · refine Leads.of_step ?_ (same ▸ ih more)
      simp only [step, isDigit, digit, value, more, setVersion, ↓reduceIte]
    · have past := number_le (n * 10 + d.val) rest
      rw [same, if_neg (by omega)]
      have refused : (Reader.mk { s with apiVersion := some n } frames (.digits n)).on [d.char] =
          .error .invalidNumber := by
        simp only [on, List.foldlM_cons, step, isDigit, digit, value, more, ↓reduceIte]
        rfl
      exact Leads.of_refused refused (rest.map Digit.char)

/-- The whole part of a version is read. -/
theorem leads_whole (s : Seen) (frames : List Frame) (w : Whole) :
    Leads ⟨s, frames, .value (some .apiVersion)⟩ w.text
      (if w.number ≤ largestVersion then some { s with apiVersion := some w.number } else none) (InNumber frames) := by
  cases w with
  | zero => exact ⟨_, rfl, .inl rfl⟩
  | positive first rest =>
    have letter : ∀ f : Fin 9, Digit.char f.succ ≠ 'n' ∧ Digit.char f.succ ≠ '-' ∧ Digit.char f.succ ≠ '0' ∧
        (Digit.char f.succ).isDigit = true ∧ (Digit.char f.succ).toNat - '0'.toNat = f.val + 1 ∧
        isSpace (Digit.char f.succ) = false := by decide
    obtain ⟨null, minus, zero, digit, value, noSpace⟩ := letter first
    have few : first.val + 1 ≤ largestVersion := Nat.le_trans first.isLt (by decide)
    refine Leads.of_step ?_ (leads_digits s frames few rest)
    simp only [step, noSpace, Bool.false_eq_true, ↓reduceIte, stepSpaced, knownValue, null, minus, zero, digit, value,
      setVersion]

/-- Nothing more of a number may come where a member is expected to end. -/
theorem tail_refused {scope : Scope} {outer : List Frame} {seen : Seen} {after : Reader}
    (inside : InNumber (.object scope false :: outer) seen after) {n : Number}
    (more : n.fraction.isSome ∨ n.exponent.isSome) : ∃ cause, after.on n.tail = .error cause := by
  have begins : ∃ c rest, n.tail = c :: rest ∧ c ∈ ['.', 'e', 'E'] := by
    cases fraction : n.fraction with
    | some ds =>
      exact ⟨'.', ds.text ++ n.exponent.elim [] Exponent.text, by simp [Number.tail, fraction], by simp⟩
    | none =>
      cases exponent : n.exponent with
      | some e =>
        exact ⟨if e.capital then 'E' else 'e', e.sign.text ++ e.digits.text,
          by simp [Number.tail, fraction, exponent, Exponent.text], by cases e.capital <;> simp⟩
      | none => simp [fraction, exponent] at more
  obtain ⟨c, rest, parts, tail⟩ := begins
  refine ⟨.objectEndExpected, ?_⟩
  rw [parts, on_cons]
  simp only [List.mem_cons, List.not_mem_nil, or_false] at tail
  rcases tail with rfl | rfl | rfl
  all_goals obtain rfl | ⟨m, rfl⟩ := inside <;> rfl

/-- The value of a version is read as far as it fits. -/
theorem leads_number (s : Seen) (scope : Scope) (outer : List Frame) (n : Number) :
    Leads ⟨s, .object scope false :: outer, .value (some .apiVersion)⟩ n.text
      (if (Datum.ofNumber n).fits .apiVersion then some ((Datum.ofNumber n).kept .apiVersion s) else none)
      (fun seen => Rests ⟨seen, .object scope false :: outer, .next⟩) := by
  have unfit : n.plain? = none → (Datum.ofNumber n).fits .apiVersion = false := by
    intro none
    simp only [Datum.ofNumber, none, Datum.fits]
  cases negative : n.negative with
  | true =>
    rw [unfit (by simp [Number.plain?, negative])]
    exact ⟨.invalidNumber, by simp only [Number.text, negative, ↓reduceIte, List.cons_append]; rfl⟩
  | false =>
    have parts : n.text = n.whole.text ++ n.tail := by simp [Number.text, negative]
    have whole := leads_whole s (.object scope false :: outer) n.whole
    rw [parts]
    by_cases more : n.fraction.isSome ∨ n.exponent.isSome
    · -- The whole part is past the largest version, or else what follows it is refused.
      have refused := whole.andThen fun seen after inside =>
        show Leads after n.tail none fun seen => Rests ⟨seen, .object scope false :: outer, .next⟩ from
          tail_refused inside more
      rw [unfit (by rcases more with some | some <;> simp [Number.plain?, negative, some])]
      rwa [Option.bind_fun_none] at refused
    · obtain ⟨noFraction, noExponent⟩ := not_or.mp more
      have plain : n.plain? = some n.whole.number := by simp_all [Number.plain?]
      have tail : n.tail = [] := by simp_all [Number.tail]
      rw [tail, List.append_nil, Datum.ofNumber, plain]
      by_cases few : n.whole.number ≤ largestVersion
      · simp only [few, ↓reduceIte] at whole ⊢
        obtain ⟨after, read, inside⟩ := whole
        refine ⟨after, read, ?_⟩
        obtain rfl | ⟨m, rfl⟩ := inside
        · exact .ended
        · exact .digits m
      · simp only [few, ↓reduceIte] at whole ⊢
        exact whole

/-! ### Values that end where they begin -/

/-- The value of a known member, if it is not an object, is read as far as it fits. -/
theorem leads_leaf (s : Seen) (scope : Scope) (outer : List Frame) (f : Field) {v : Value}
    (leaf : ∀ members, v ≠ .object members) :
    Leads ⟨s, .object scope false :: outer, .value (some f)⟩ v.text
      (if (Datum.ofValue v).fits f then some ((Datum.ofValue v).kept f s) else none)
      (fun seen => Rests ⟨seen, .object scope false :: outer, .next⟩) := by
  have refused {c : Char} {rest : List Char} {cause : ReadError}
      (stops : (Reader.mk s (.object scope false :: outer) (.value (some f))).step c = .error cause) :
      Leads ⟨s, .object scope false :: outer, .value (some f)⟩ (c :: rest) none
        (fun seen => Rests ⟨seen, .object scope false :: outer, .next⟩) := ⟨cause, by rw [on_cons, stops]; rfl⟩
  cases v with
  | null => exact ⟨_, by cases f <;> rfl, .ended⟩
  | flag b =>
    cases b with
    | true =>
      cases f with
      | apiVersion => exact refused rfl
      | wifi => exact refused rfl
      | rtc | loop | draw | wifiSetup | wifiLoop => exact ⟨_, rfl, .ended⟩
    | false =>
      cases f with
      | apiVersion => exact refused rfl
      | wifi => exact refused rfl
      | rtc | loop | draw | wifiSetup | wifiLoop => exact ⟨_, rfl, .ended⟩
  | number n =>
    by_cases version : f = .apiVersion
    · subst version
      exact leads_number s scope outer n
    · have unfit : (Datum.ofValue (.number n)).fits f = false := by
        simp only [Datum.ofValue, Datum.ofNumber]
        split
        · split
          · cases f <;> first | rfl | exact absurd rfl version
          · cases f <;> rfl
        · cases f <;> rfl
      rw [unfit]
      obtain ⟨c, rest, parts, ⟨rfl, -⟩ | ⟨⟨d, rfl⟩, -⟩⟩ := number_begins n
      · rw [Value.text, parts]
        have stops : Reader.step ⟨s, .object scope false :: outer, .value (some f)⟩ '-' = .error .invalidType := by
          cases f <;> first | rfl | exact absurd rfl version
        exact refused stops
      · have letter : ∀ d : Digit, d.char ≠ 'n' ∧ d.char ≠ '{' ∧ d.char ≠ 't' ∧ d.char ≠ 'f' ∧
            isSpace d.char = false := by decide
        obtain ⟨null, object, yes, no, noSpace⟩ := letter d
        rw [Value.text, parts]
        have stops : Reader.step ⟨s, .object scope false :: outer, .value (some f)⟩ d.char = .error .invalidType := by
          simp only [step, noSpace, Bool.false_eq_true, ↓reduceIte, stepSpaced, knownValue, null]
          cases f with
          | apiVersion => exact absurd rfl version
          | wifi => simp only [object, ↓reduceIte]
          | rtc | loop | draw | wifiSetup | wifiLoop => simp only [yes, no, ↓reduceIte]
        exact refused stops
  | string letters =>
    exact (show (Datum.ofValue (.string letters)).fits f = false by cases f <;> rfl) ▸ refused (by cases f <;> rfl)
  | list items =>
    exact (show (Datum.ofValue (.list items)).fits f = false by cases f <;> rfl) ▸ refused (by cases f <;> rfl)
  | object members => exact absurd rfl (leaf members)

/-! ### Lists and objects -/

/-- Elements or members are about to be read: the first, after nothing but blanks, or more of them, after
one. -/
def Opens (first : Bool) (frame : Bool → Frame) (s : Seen) (outer : List Frame) (start : Reader) : Prop :=
  if first then start = ⟨s, frame true :: outer, .next⟩ else Rests ⟨s, frame false :: outer, .next⟩ start

/-- The end of a list or an object. -/
theorem Opens.close {first : Bool} {frame : Bool → Frame} {s : Seen} {outer : List Frame} {start : Reader}
    (opens : Opens first frame s outer start) (blanks : Blanks) {c : Char} (delimiter : c ∈ [',', '}', ']'])
    (ends : ∀ fresh, (Reader.mk s (frame fresh :: outer) .next).between c = .ok (leave s outer)) :
    start.on (blanks.text ++ [c]) = .ok (leave s outer) := by
  cases first with
  | true =>
    obtain rfl : start = ⟨s, frame true :: outer, .next⟩ := opens
    have noSpace : isSpace c = false := by
      simp only [List.mem_cons, List.not_mem_nil, or_false] at delimiter
      rcases delimiter with rfl | rfl | rfl <;> decide
    rw [on_of_on (on_blanks (by rintro (_ | _ | _ | _) <;> rfl) blanks)]
    refine on_of_step ?_ []
    simp only [step, noSpace, Bool.false_eq_true, ↓reduceIte, stepSpaced]
    exact ends true
  | false =>
    obtain ⟨after, read, rests⟩ := Rests.on_blanks opens blanks
    rw [on_of_on read]
    refine on_of_step ?_ []
    rw [rests.step_delimiter delimiter]
    exact ends false

/-- A comma stands before an element or a member but the first. -/
theorem Opens.comma {frame : Bool → Frame} {s : Seen} {outer : List Frame} {start : Reader}
    (opens : Opens false frame s outer start)
    (comma : (Reader.mk s (frame false :: outer) .next).between ',' = .ok ⟨s, frame false :: outer, .afterComma⟩)
    (before : Blanks) (rest : List Char) :
    start.on (',' :: (before.text ++ rest)) = (Reader.mk s (frame false :: outer) .afterComma).on rest := by
  have step : start.step ',' = .ok ⟨s, frame false :: outer, .afterComma⟩ := by
    rw [Rests.step_delimiter opens (by decide)]
    exact comma
  rw [on_of_step step, on_of_on (on_blanks (by rintro (_ | _ | _ | _) <;> rfl) before)]

/-- A key begins. -/
theorem Opens.key {first : Bool} {scope : Scope} {s : Seen} {outer : List Frame} {start : Reader}
    (opens : Opens first (.object scope) s outer start) (before : Blanks) (rest : List Char) :
    start.on ((if first then [] else [',']) ++ (before.text ++ ('"' :: rest))) =
      (Reader.mk s (.object scope false :: outer) (.key [] false)).on rest := by
  cases first with
  | true =>
    obtain rfl : start = ⟨s, .object scope true :: outer, .next⟩ := opens
    simp only [↓reduceIte, List.nil_append]
    rw [on_of_on (on_blanks (by rintro (_ | _ | _ | _) <;> rfl) before)]
    exact on_of_step rfl rest
  | false =>
    refine (opens.comma rfl before ('"' :: rest)).trans ?_
    exact on_of_step rfl rest

/-- A value does not begin with a blank, nor with a character that may end a list. -/
theorem value_begins (v : Value) : ∃ c rest, v.text = c :: rest ∧ isSpace c = false ∧ c ≠ ',' ∧ c ≠ ']' := by
  cases v with
  | null => exact ⟨_, _, rfl, by decide⟩
  | flag b => cases b <;> exact ⟨_, _, rfl, by decide⟩
  | number n =>
    obtain ⟨c, rest, parts, -⟩ := number_begins n
    have all := all_number n
    rw [parts, List.all_cons, Bool.and_eq_true] at all
    have plain := all.1
    simp only [unquoted, Bool.and_eq_true, Bool.not_eq_true', decide_eq_true_eq, List.mem_cons, List.not_mem_nil,
      or_false, not_or] at plain
    exact ⟨c, rest, parts, plain.1, plain.2.2.2.2.1, plain.2.2.2.2.2.2⟩
  | string letters => exact ⟨_, _, rfl, by decide⟩
  | list items => exact ⟨_, _, rfl, by decide⟩
  | object members => exact ⟨_, _, rfl, by decide⟩

/-- An element begins. -/
theorem Opens.element {first : Bool} {s : Seen} {outer : List Frame} {start : Reader}
    (opens : Opens first .list s outer start) (before : Blanks) (v : Value) (rest : List Char) :
    start.on ((if first then [] else [',']) ++ (before.text ++ (v.text ++ rest))) =
      (Reader.mk s (.list false :: outer) (.value none)).on (v.text ++ rest) := by
  obtain ⟨c, more, parts, noSpace, noComma, noEnd⟩ := value_begins v
  rw [parts, List.cons_append]
  have value : (Reader.mk s (.list false :: outer) (.value none)).step c =
      (Reader.mk s (.list false :: outer) (.value none)).skippedValue c := by
    simp only [step, noSpace, Bool.false_eq_true, ↓reduceIte, stepSpaced]
  rw [on_cons _ c, value]
  cases first with
  | true =>
    obtain rfl : start = ⟨s, .list true :: outer, .next⟩ := opens
    simp only [↓reduceIte, List.nil_append]
    rw [on_of_on (on_blanks (by rintro (_ | _ | _ | _) <;> rfl) before), on_cons]
    simp only [step, noSpace, Bool.false_eq_true, ↓reduceIte, stepSpaced, between, noEnd, noComma]
    rfl
  | false =>
    refine (opens.comma rfl before (c :: (more ++ rest))).trans ?_
    rw [on_cons]
    simp only [step, noSpace, Bool.false_eq_true, ↓reduceIte, stepSpaced, pastComma, noEnd]
    rfl

/-- The rest of a member after its key is read as its value. -/
theorem on_colon (s : Seen) (frames : List Frame) (field : Option Field) (beforeColon afterColon : Blanks)
    (rest : List Char) :
    (Reader.mk s frames (.colon field)).on (beforeColon.text ++ (':' :: (afterColon.text ++ rest))) =
      (Reader.mk s frames (.value field)).on rest := by
  have colon : (Reader.mk s frames (.colon field)).step ':' = .ok ⟨s, frames, .value field⟩ := rfl
  have blank (b : Blank) : (Reader.mk s frames (.value field)).step b.char = .ok ⟨s, frames, .value field⟩ := by
    cases b <;> rfl
  rw [on_of_on (on_blanks (by rintro (_ | _ | _ | _) <;> rfl) beforeColon), on_of_step colon,
    on_of_on (on_blanks blank afterColon)]

/-- What was read is not changed by members that nobody knows. -/
theorem knownIn_unknown : (members : Members) → knownIn .unknown members = []
  | .close _ => rfl
  | .member _ _ _ _ _ _ rest => knownIn_unknown rest

/-- After its key, a member is read as its value, or refused if the key has occurred. -/
theorem leads_key (s : Seen) (scope : Scope) (outer : List Frame) (key : List Letter) (beforeColon afterColon : Blanks)
    {rest : List Char} {result : Option Seen} {goal : Seen → Reader → Prop}
    (value : match scope.field? (String.ofList (Letter.raw key)) with
      | none => Leads ⟨s, .object scope false :: outer, .value none⟩ rest result goal
      | some f => if f ∈ s.keys then result = none else
        Leads ⟨{ s with keys := f :: s.keys }, .object scope false :: outer, .value (some f)⟩ rest result goal) :
    Leads ⟨s, .object scope false :: outer, .key [] false⟩
      (Letter.raw key ++ ('"' :: (beforeColon.text ++ (':' :: (afterColon.text ++ rest))))) result goal := by
  refine Leads.of_on (on_key s _ key) ?_
  have ends : (Reader.mk s (.object scope false :: outer) (.key (Letter.raw key).reverse false)).step '"' =
      endKey ⟨s, .object scope false :: outer, .key (Letter.raw key).reverse false⟩ (String.ofList (Letter.raw key)) := by
    rw [step]
    simp
  cases field : scope.field? (String.ofList (Letter.raw key)) with
  | none =>
    rw [field] at value
    have unknown := ends.trans (show _ = .ok ⟨s, .object scope false :: outer, .colon none⟩ by
      simp only [endKey, Reader.scope, field]
      rfl)
    exact Leads.of_step unknown (Leads.of_eq (on_colon s _ none beforeColon afterColon rest) value)
  | some f =>
    rw [field] at value
    by_cases repeated : f ∈ s.keys
    · simp only [repeated, ↓reduceIte] at value
      subst value
      have refused := ends.trans (show _ = .error .repeatedKey by
        simp only [endKey, Reader.scope, field, repeated, ↓reduceIte])
      exact ⟨.repeatedKey, by rw [on_cons, refused]; rfl⟩
    · simp only [repeated, ↓reduceIte] at value
      have accepted := ends.trans (show _ = .ok ⟨{ s with keys := f :: s.keys }, .object scope false :: outer, .colon (some f)⟩ by
        simp only [endKey, Reader.scope, field, repeated, ↓reduceIte])
      exact Leads.of_step accepted (Leads.of_eq (on_colon _ _ (some f) beforeColon afterColon rest) value)

/-- What the value of a known member makes of what was read. -/
def valued (f : Field) (v : Value) (s : Seen) : Option Seen :=
  if (Datum.ofValue v).fits f then (knownWithin f v).foldlM take ((Datum.ofValue v).kept f s) else none

mutual

/-- A value that is skipped leaves what was read as it is. -/
theorem skips_value (s : Seen) (frame : Frame) (outer : List Frame) : (v : Value) →
    ∃ after, (Reader.mk s (frame :: outer) (.value none)).on v.text = .ok after ∧ Rests ⟨s, frame :: outer, .next⟩ after
  | .null => ⟨_, skips_unquoted s _ (by decide), .unquoted⟩
  | .flag true => ⟨_, skips_unquoted s _ (by decide), .unquoted⟩
  | .flag false => ⟨_, skips_unquoted s _ (by decide), .unquoted⟩
  | .number n => by
    obtain ⟨c, rest, parts, -⟩ := number_begins n
    rw [Value.text, parts]
    exact ⟨_, skips_unquoted s _ (parts ▸ all_number n), .unquoted⟩
  | .string letters => ⟨_, (on_of_step rfl _).trans (on_string s _ letters), .ended⟩
  | .list items => by
    have opens : Opens true .list s (frame :: outer) ⟨s, .list true :: frame :: outer, .next⟩ := rfl
    have inside := skips_items s (frame :: outer) items opens
    exact ⟨_, (on_of_step rfl _).trans inside, .ended⟩
  | .object members => by
    have opens : Opens true (.object .unknown) s (frame :: outer) ⟨s, .object .unknown true :: frame :: outer, .next⟩ := rfl
    have inside := leads_members s .unknown (frame :: outer) members opens
    rw [knownIn_unknown] at inside
    obtain ⟨after, read, rfl⟩ := inside
    exact ⟨_, (on_of_step rfl _).trans read, .ended⟩

/-- The elements of a list that is skipped leave what was read as it is. -/
theorem skips_items (s : Seen) (outer : List Frame) : (items : Items) → {first : Bool} → {start : Reader} →
    Opens first .list s outer start → start.on (items.text first ++ [']']) = .ok (leave s outer)
  | .close blanks, _, _, opens => opens.close blanks (by decide) fun _ => by
    simp only [between, ↓reduceIte]
    rw [pop_eq rfl]
  | .item before value after rest, first, start, opens => by
    obtain ⟨last, read, rests⟩ := skips_value s (.list false) outer value
    obtain ⟨next, blanks, still⟩ := rests.on_blanks after
    have opens' : Opens false .list s outer next := still
    have more := skips_items s outer rest opens'
    rw [Items.text]
    simp only [List.append_assoc]
    rw [opens.element before value, on_of_on read, on_of_on blanks]
    exact more

/-- The value of a known member is read as far as it fits, and the known members within it are kept. -/
theorem leads_known (s : Seen) (scope : Scope) (outer : List Frame) (f : Field) : (v : Value) →
    Leads ⟨s, .object scope false :: outer, .value (some f)⟩ v.text (valued f v s)
      fun seen => Rests ⟨seen, .object scope false :: outer, .next⟩
  | .object members => by
    by_cases wifi : f = .wifi
    · subst wifi
      have opens : Opens true (.object .wifi) { s with wifi := true } (.object scope false :: outer)
        ⟨{ s with wifi := true }, .object .wifi true :: .object scope false :: outer, .next⟩ := rfl
      have inside := leads_members { s with wifi := true } .wifi (.object scope false :: outer) members opens
      have kept : valued .wifi (.object members) s = (knownIn .wifi members).foldlM take { s with wifi := true } := rfl
      rw [kept]
      refine Leads.of_step rfl (inside.mono ?_)
      rintro seen _ rfl
      exact rests_leave seen _ outer .next
    · have unfit : valued f (.object members) s = none := by cases f <;> first | rfl | exact absurd rfl wifi
      rw [unfit]
      exact ⟨.invalidType, by cases f <;> first | rfl | exact absurd rfl wifi⟩
  | .null => leads_leaf s scope outer f nofun
  | .flag b => leads_leaf s scope outer f nofun
  | .number n => leads_leaf s scope outer f nofun
  | .string letters => leads_leaf s scope outer f nofun
  | .list items => leads_leaf s scope outer f nofun

/-- Known members are kept one after the other, and the others skipped. -/
theorem leads_members (s : Seen) (scope : Scope) (outer : List Frame) : (members : Members) → {first : Bool} →
    {start : Reader} → Opens first (.object scope) s outer start →
    Leads start (members.text first ++ ['}']) ((knownIn scope members).foldlM take s)
      fun seen after => after = leave seen outer
  | .close blanks, _, _, opens => ⟨_, opens.close blanks (by decide) (fun _ => by
    simp only [between, ↓reduceIte]
    rw [pop_eq rfl]), rfl⟩
  | .member before key beforeColon afterColon value after rest, first, start, opens => by
    have continues (seen : Seen) (last : Reader) (rests : Rests ⟨seen, .object scope false :: outer, .next⟩ last) :
        Leads last (after.text ++ (rest.text false ++ ['}'])) ((knownIn scope rest).foldlM take seen)
          fun seen after => after = leave seen outer := by
      obtain ⟨next, blanks, still⟩ := rests.on_blanks after
      have opens' : Opens false (.object scope) seen outer next := still
      exact Leads.of_on blanks (leads_members seen scope outer rest opens')
    rw [Members.text]
    simp only [List.append_assoc, List.cons_append]
    refine Leads.of_eq (opens.key before _) (leads_key s scope outer key beforeColon afterColon ?_)
    rw [knownIn]
    cases field : scope.field? (String.ofList (Letter.raw key)) with
    | none =>
      obtain ⟨last, read, rests⟩ := skips_value s (.object scope false) outer value
      exact Leads.of_on read (continues s last rests)
    | some f =>
      simp only [List.foldlM_append, List.foldlM_cons]
      by_cases repeated : f ∈ s.keys
      · have refused : take s (f, .ofValue value) = none := if_pos (.inl repeated)
        simp only [repeated, ↓reduceIte, refused]
        rfl
      · simp only [repeated, ↓reduceIte]
        have kept : (take s (f, .ofValue value)).bind ((knownWithin f value).foldlM take) =
            valued f value { s with keys := f :: s.keys } := by
          simp only [take, valued, repeated, false_or]
          cases (Datum.ofValue value).fits f <;> rfl
        have known := leads_known { s with keys := f :: s.keys } scope outer f value
        rw [← kept] at known
        exact known.andThen continues

end

end ConferenceBadge.Manifest.Reader
