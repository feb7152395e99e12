import ConferenceBadge.Console.Command
import Mathlib.Algebra.Group.Nat.Defs
import Mathlib.Data.List.Induction
import Mathlib.Data.List.TakeWhile

/-!
The grammar of console commands. `Spells` says which lines spell which command, without regard to how
a line is read. Reading a line finds the command that it spells, and there is never more than one
(`parse_grammar`): the forms begin with words none of which begins another, so the order in which they
are tried does not matter. Where a line spells no command, what was read of it, if anything, does.
-/
namespace ConferenceBadge.Console.Command

/-- The characters that may stand between a command and its argument. -/
def gapChars : List Char := [' ', '\t', '\r', '\n']

/-- What separates a command from its argument. -/
structure Gap (blanks : List Char) : Prop where
  nonempty : blanks ≠ []
  blank : ∀ c ∈ blanks, c ∈ gapChars

/-- A text before which a gap cannot go on. -/
def EndsGap (text : List Char) : Prop := ∀ c ∈ text.head?, c ∉ gapChars

/-- The commands that are a single word. -/
def words : List (String × Command) :=
  [("press", .press), ("tasks", .tasks), ("services", .services), ("events", .events), ("idle", .idle),
    ("draw", .draw), ("screen", .screen)]

/-- Which lines spell which command. Numbers are written in decimal, without needless zeros. -/
inductive Spells : List Char → Command → Prop
  | advance {gap : List Char} (blank : Gap gap) {millis : Nat} (short : millis < 2 ^ 64) :
      Spells ("advance".toList ++ gap ++ (toString millis).toList) (.advance (.ofMillis millis))
  | oneTick : Spells "tick".toList (.tick 1)
  | ticks {gap : List Char} (blank : Gap gap) {count : Nat} (few : count < 2 ^ 32) :
      Spells ("tick".toList ++ gap ++ (toString count).toList) (.tick count)
  | wifiOn {gap : List Char} (blank : Gap gap) : Spells ("wifi".toList ++ gap ++ "on".toList) (.wifi true)
  | wifiOff {gap : List Char} (blank : Gap gap) : Spells ("wifi".toList ++ gap ++ "off".toList) (.wifi false)
  | help : Spells "help".toList (.help none)
  | topic {gap : List Char} (blank : Gap gap) {topic : String} (maximal : EndsGap topic.toList) :
      Spells ("help".toList ++ gap ++ topic.toList) (.help (some topic))
  | word {word : String} {command : Command} (known : (word, command) ∈ words) : Spells word.toList command

section Numerals

/-- A digit is the character of its value. -/
theorem digitChar_value {c : Char} (digit : c.isDigit = true) : Nat.digitChar (c.toNat - '0'.toNat) = c := by
  obtain ⟨least, most⟩ := Char.isDigit_iff_toNat.mp digit
  change 48 ≤ c.toNat at least
  change c.toNat ≤ 57 at most
  change Nat.digitChar (c.toNat - 48) = c
  apply Char.toNat_inj.mp
  rw [Nat.toNat_digitChar_of_lt_ten (by omega)]
  omega

theorem ofDigits_eq (digits : List Char) : ofDigits digits = Nat.ofDigitChars 10 digits 0 := by
  simp only [ofDigits, Nat.ofDigitChars_eq_foldl, Nat.mul_comm]

/-- A positive number does not begin with a zero. -/
theorem head?_toDigits_ne_zero {n : Nat} (positive : 0 < n) : (Nat.toDigits 10 n).head? ≠ some '0' := by
  induction n using Nat.strongRecOn with
  | ind n ih =>
    rw [Nat.toDigits_eq_if (by decide)]
    split
    · intro zero
      exact Nat.ne_of_gt positive (Nat.digitChar_eq_zero.mp (Option.some.inj zero))
    · next large =>
      have fewer := ih (n / 10) (by omega) (by omega)
      obtain ⟨first, others, digits⟩ := List.exists_cons_of_ne_nil (Nat.toDigits_ne_nil (b := 10) (n := n / 10))
      rw [digits] at fewer ⊢
      exact fewer

/-- Digits of which the first is not zero are those of their number. -/
theorem toDigits_ofDigits {first : Char} {digits : List Char} (nonzero : first ≠ '0')
    (decimal : ∀ c ∈ first :: digits, c.isDigit = true) :
    Nat.toDigits 10 (ofDigits (first :: digits)) = first :: digits := by
  rw [ofDigits_eq]
  have value {c : Char} (digit : c.isDigit = true) : c.toNat - '0'.toNat < 10 := by
    obtain ⟨-, most⟩ := Char.isDigit_iff_toNat.mp digit
    change c.toNat ≤ 57 at most
    change c.toNat - 48 < 10
    omega
  induction digits using List.reverseRecOn with
  | nil =>
    have digit := decimal first List.mem_cons_self
    rw [Nat.ofDigitChars_cons, Nat.ofDigitChars_nil, Nat.mul_zero, Nat.zero_add,
      Nat.toDigits_of_lt_base (value digit), digitChar_value digit]
  | append_singleton digits last ih =>
    rw [← List.cons_append] at decimal ⊢
    have digit := decimal last (List.mem_append_right _ List.mem_cons_self)
    have before := ih fun c member => decimal c (List.mem_append_left _ member)
    have positive : 0 < Nat.ofDigitChars 10 (first :: digits) 0 := by
      refine Nat.pos_of_ne_zero fun none => ?_
      rw [none, Nat.toDigits_zero] at before
      exact nonzero (List.cons.inj before).1.symm
    rw [Nat.ofDigitChars_append, Nat.ofDigitChars_cons, Nat.ofDigitChars_nil,
      ← Nat.toDigits_append_toDigits (by decide) positive (value digit), before,
      Nat.toDigits_of_lt_base (value digit), digitChar_value digit]

/-- A number within the limit is read off its numeral. -/
theorem number_toString {limit n : Nat} (bound : n ≤ limit) :
    number limit (toString n).toList = some (n, []) := by
  rw [Nat.toString_eq_ofList_toDigits, String.toList_ofList]
  rcases Nat.eq_zero_or_pos n with rfl | positive
  · rfl
  · have nonzero := head?_toDigits_ne_zero positive
    have decimal : ∀ c ∈ Nat.toDigits 10 n, c.isDigit = true := fun c =>
      Nat.isDigit_of_mem_toDigits (by decide) (by decide)
    have read : ofDigits (Nat.toDigits 10 n) = n := (ofDigits_eq _).trans Nat.ofDigitChars_ten_toDigits
    cases digits : Nat.toDigits 10 n with
    | nil => exact absurd digits Nat.toDigits_ne_nil
    | cons first rest =>
      rw [digits] at nonzero decimal read
      have other : first ≠ '0' := fun zero => nonzero (congrArg some zero)
      have all := List.takeWhile_eq_self_iff.mpr fun c member => decimal c (List.mem_cons_of_mem first member)
      have none := List.dropWhile_eq_nil_iff.mpr fun c member => decimal c (List.mem_cons_of_mem first member)
      simp only [number, other, decimal first List.mem_cons_self, all, none, read, bound, ↓reduceIte]

/-- What is read as a number is its numeral, and the number is within the limit. -/
theorem numeral_of_number {limit n : Nat} {text rest : List Char} (read : number limit text = some (n, rest)) :
    n ≤ limit ∧ text = (toString n).toList ++ rest := by
  rw [Nat.toString_eq_ofList_toDigits, String.toList_ofList]
  cases text with
  | nil => contradiction
  | cons first others =>
    rw [number] at read
    split at read
    · next zero =>
      obtain ⟨rfl, rfl⟩ := Prod.mk.inj (Option.some.inj read)
      exact ⟨Nat.zero_le limit, congrArg (· :: others) zero⟩
    · next nonzero =>
      split at read
      · next digit =>
        simp only at read
        split at read
        · next bound =>
          obtain ⟨rfl, rfl⟩ := Prod.mk.inj (Option.some.inj read)
          refine ⟨bound, ?_⟩
          rw [toDigits_ofDigits nonzero ?_, List.cons_append, List.takeWhile_append_dropWhile]
          exact List.forall_mem_cons.mpr ⟨digit, fun c member => List.mem_takeWhile_imp member⟩
        · contradiction
      · contradiction

end Numerals

section Gaps

theorem isGap_iff {c : Char} : isGap c = true ↔ c ∈ gapChars := by
  simp [isGap, gapChars, or_assoc]

/-- A gap is passed over as a whole. -/
theorem afterGap_append {gap rest : List Char} (blank : Gap gap) (ends : EndsGap rest) :
    afterGap (gap ++ rest) = some rest := by
  have all : ∀ c ∈ gap, isGap c = true := fun c member => isGap_iff.mpr (blank.blank c member)
  have stops : rest.dropWhile isGap = rest := by
    cases rest with
    | nil => rfl
    | cons c others => exact List.dropWhile_cons_of_neg fun more => ends c rfl (isGap_iff.mp more)
  cases gap with
  | nil => exact absurd rfl blank.nonempty
  | cons c others =>
    obtain ⟨first, more⟩ := List.forall_mem_cons.mp all
    rw [List.cons_append, afterGap, if_pos first, List.dropWhile_append, List.dropWhile_eq_nil_iff.mpr more]
    exact congrArg some stops

/-- What is passed over is a gap that cannot go on. -/
theorem gap_of_afterGap {text rest : List Char} (passed : afterGap text = some rest) :
    ∃ gap, Gap gap ∧ EndsGap rest ∧ text = gap ++ rest := by
  cases text with
  | nil => contradiction
  | cons c others =>
    rw [afterGap] at passed
    split at passed
    · next first =>
      obtain rfl := Option.some.inj passed
      refine ⟨c :: others.takeWhile isGap, ⟨List.cons_ne_nil _ _, ?_⟩, ?_, ?_⟩
      · refine List.forall_mem_cons.mpr ⟨isGap_iff.mp first, fun d member => ?_⟩
        exact isGap_iff.mp (List.mem_takeWhile_imp member)
      · intro d head more
        have stops := List.head?_dropWhile_not isGap others
        rw [head] at stops
        exact Bool.false_ne_true (stops.symm.trans (isGap_iff.mpr more))
      · rw [List.cons_append, List.takeWhile_append_dropWhile]
    · contradiction

theorem endsGap_numeral (n : Nat) : EndsGap (toString n).toList := by
  intro c head gap
  rw [Nat.toString_eq_ofList_toDigits, String.toList_ofList] at head
  have digit := Nat.isDigit_of_mem_toDigits (by decide) (by decide) (List.mem_of_mem_head? head)
  revert digit
  simp only [gapChars, List.mem_cons, List.not_mem_nil, or_false] at gap
  rcases gap with rfl | rfl | rfl | rfl <;> decide

end Gaps

section Forms

/-- All that a form finds at the beginning of a text is a line for the command. -/
def Sound (form : Form Command) : Prop :=
  ∀ {text rest : List Char} {command : Command}, form text = some (command, rest) →
    ∃ line, text = line ++ rest ∧ Spells line command

theorem sound_plain {word : String} {command : Command} (known : (word, command) ∈ words) :
    Sound (plain word command) := by
  intro text rest found read
  obtain ⟨left, after, same⟩ := Option.map_eq_some_iff.mp read
  obtain ⟨rfl, rfl⟩ := Prod.mk.inj same
  exact ⟨word.toList, afterWord_eq_some_iff.mp after, .word known⟩

theorem sound_advanceForm : Sound advanceForm := by
  intro text rest found read
  simp only [advanceForm, Option.bind_eq_bind, Option.bind_eq_some_iff] at read
  obtain ⟨after, word, argument, passed, ⟨millis, left⟩, number, same⟩ := read
  obtain ⟨rfl, rfl⟩ := Prod.mk.inj (Option.some.inj same)
  obtain ⟨gap, blank, -, rfl⟩ := gap_of_afterGap passed
  obtain ⟨bound, rfl⟩ := numeral_of_number number
  refine ⟨_, ?_, .advance blank (Nat.lt_succ_of_le bound)⟩
  rw [afterWord_eq_some_iff.mp word, List.append_assoc, List.append_assoc]

theorem sound_tickForm : Sound tickForm := by
  intro text rest found read
  simp only [tickForm, Option.bind_eq_bind, Option.bind_eq_some_iff] at read
  obtain ⟨after, word, read⟩ := read
  obtain rfl := afterWord_eq_some_iff.mp word
  split at read
  · next count left counted =>
    obtain ⟨rfl, rfl⟩ := Prod.mk.inj (Option.some.inj read)
    obtain ⟨argument, passed, number⟩ := Option.bind_eq_some_iff.mp counted
    obtain ⟨gap, blank, -, rfl⟩ := gap_of_afterGap passed
    obtain ⟨bound, rfl⟩ := numeral_of_number number
    refine ⟨_, ?_, .ticks blank (Nat.lt_succ_of_le bound)⟩
    rw [List.append_assoc, List.append_assoc]
  · obtain ⟨rfl, rfl⟩ := Prod.mk.inj (Option.some.inj read)
    exact ⟨_, rfl, .oneTick⟩

theorem sound_wifiForm : Sound wifiForm := by
  intro text rest found read
  simp only [wifiForm, Option.bind_eq_bind, Option.bind_eq_some_iff] at read
  obtain ⟨after, word, argument, passed, read⟩ := read
  obtain rfl := afterWord_eq_some_iff.mp word
  obtain ⟨gap, blank, -, rfl⟩ := gap_of_afterGap passed
  split at read
  · next left on =>
    obtain ⟨rfl, rfl⟩ := Prod.mk.inj (Option.some.inj read)
    refine ⟨_, ?_, .wifiOn blank⟩
    rw [afterWord_eq_some_iff.mp on, List.append_assoc, List.append_assoc]
  · obtain ⟨left, off, same⟩ := Option.bind_eq_some_iff.mp read
    obtain ⟨rfl, rfl⟩ := Prod.mk.inj (Option.some.inj same)
    refine ⟨_, ?_, .wifiOff blank⟩
    rw [afterWord_eq_some_iff.mp off, List.append_assoc, List.append_assoc]

theorem sound_helpForm : Sound helpForm := by
  intro text rest found read
  simp only [helpForm, Option.bind_eq_bind, Option.bind_eq_some_iff] at read
  obtain ⟨after, word, read⟩ := read
  obtain rfl := afterWord_eq_some_iff.mp word
  split at read
  · next topic passed =>
    obtain ⟨rfl, rfl⟩ := Prod.mk.inj (Option.some.inj read)
    obtain ⟨gap, blank, ends, rfl⟩ := gap_of_afterGap passed
    have same : (String.ofList topic).toList = topic := String.toList_ofList
    refine ⟨_, ?_, .topic blank (same.symm ▸ ends)⟩
    rw [same, List.append_nil, List.append_assoc]
  · obtain ⟨rfl, rfl⟩ := Prod.mk.inj (Option.some.inj read)
    exact ⟨_, rfl, .help⟩

/-- The forms, each with the word that it begins with. -/
def worded : List (String × Form Command) :=
  [("advance", advanceForm), ("tick", tickForm), ("press", plain "press" .press), ("tasks", plain "tasks" .tasks),
    ("services", plain "services" .services), ("events", plain "events" .events), ("idle", plain "idle" .idle),
    ("wifi", wifiForm), ("draw", plain "draw" .draw), ("screen", plain "screen" .screen), ("help", helpForm)]

theorem sound_forms : ∀ form ∈ forms, Sound form := by
  have plain {word : String} {command : Command} (known : (word, command) ∈ words) : Sound (plain word command) :=
    sound_plain known
  simp only [forms, List.forall_mem_cons]
  exact ⟨sound_advanceForm, sound_tickForm, plain (by simp [words]), plain (by simp [words]), plain (by simp [words]),
    plain (by simp [words]), plain (by simp [words]), sound_wifiForm, plain (by simp [words]), plain (by simp [words]),
    sound_helpForm, fun _ none => absurd none List.not_mem_nil⟩

/-- Neither text begins with the other. -/
def Apart (word other : String) : Prop := ¬ word.toList <+: other.toList ∧ ¬ other.toList <+: word.toList

instance (word other : String) : Decidable (Apart word other) := inferInstanceAs (Decidable (_ ∧ _))

theorem afterWord_apart {word other : String} (apart : Apart word other) (rest : List Char) :
    afterWord word (other.toList ++ rest) = none := by
  cases read : afterWord word (other.toList ++ rest) with
  | none => rfl
  | some left =>
    have same : word.toList ++ left = other.toList ++ rest := (afterWord_eq_some_iff.mp read).symm
    rcases List.append_eq_append_iff.mp same with ⟨more, longer, -⟩ | ⟨more, longer, -⟩
    · exact absurd ⟨more, longer.symm⟩ apart.1
    · exact absurd ⟨more, longer.symm⟩ apart.2

/-- A form finds nothing in a text that does not begin with its word. -/
theorem begins_worded : ∀ form ∈ worded, ∀ text, afterWord form.1 text = none → form.2 text = none := by
  have plainly (word : String) (command : Command) (text : List Char) (other : afterWord word text = none) :
      plain word command text = none := by
    rw [plain, other]
    rfl
  simp only [worded, List.forall_mem_cons]
  refine ⟨?_, ?_, plainly _ _, plainly _ _, plainly _ _, plainly _ _, plainly _ _, ?_, plainly _ _, plainly _ _, ?_,
    fun _ none => absurd none List.not_mem_nil⟩
  · intro text other
    rw [advanceForm, other]
    rfl
  · intro text other
    rw [tickForm, other]
    rfl
  · intro text other
    rw [wifiForm, other]
    rfl
  · intro text other
    rw [helpForm, other]
    rfl

/-- No word of a form begins that of another. -/
theorem apart_worded : worded.Pairwise fun form other => Apart form.1 other.1 := by
  have words : (worded.map (·.1)).Pairwise Apart := by decide
  exact List.pairwise_map.mp words

/-- Among forms with words of which none begins another, the one whose word comes first reads a text. -/
theorem findSome?_worded {forms : List (String × Form Command)}
    (apart : forms.Pairwise fun form other => Apart form.1 other.1)
    (begins : ∀ form ∈ forms, ∀ text, afterWord form.1 text = none → form.2 text = none)
    {form : String × Form Command} (member : form ∈ forms) (rest : List Char) :
    (forms.map (·.2)).findSome? (· (form.1.toList ++ rest)) = form.2 (form.1.toList ++ rest) := by
  induction forms with
  | nil => contradiction
  | cons first others ih =>
    obtain ⟨ahead, apart⟩ := List.pairwise_cons.mp apart
    obtain ⟨own, begins⟩ := List.forall_mem_cons.mp begins
    rw [List.map_cons, List.findSome?_cons]
    rcases List.mem_cons.mp member with rfl | later
    · cases read : form.2 (form.1.toList ++ rest) with
      | some found => rfl
      | none =>
        refine List.findSome?_eq_none_iff.mpr fun reader known => ?_
        obtain ⟨other, there, rfl⟩ := List.mem_map.mp known
        obtain ⟨before, behind⟩ := ahead other there
        exact begins other (List.mem_cons_of_mem _ there) _ (afterWord_apart ⟨behind, before⟩ rest)
    · rw [own _ (afterWord_apart (ahead form later) rest)]
      exact ih apart begins later

/-- The form with a word reads every text that begins with it. -/
theorem read_worded {word : String} {form : Form Command} (known : (word, form) ∈ worded) (rest : List Char) :
    forms.findSome? (· (word.toList ++ rest)) = form (word.toList ++ rest) :=
  findSome?_worded apart_worded begins_worded known rest

theorem afterWord_append (word : String) (rest : List Char) : afterWord word (word.toList ++ rest) = some rest :=
  afterWord_eq_some_iff.mpr rfl

theorem afterWord_self (word : String) : afterWord word word.toList = some [] :=
  afterWord_eq_some_iff.mpr (List.append_nil _).symm

/-- A line is read whole as the command that it spells. -/
theorem Spells.read {line : List Char} {command : Command} (spelled : Spells line command) :
    forms.findSome? (· line) = some (command, []) := by
  have advance : ("advance", advanceForm) ∈ worded := by simp [worded]
  have tick : ("tick", tickForm) ∈ worded := by simp [worded]
  have wifi : ("wifi", wifiForm) ∈ worded := by simp [worded]
  have help : ("help", helpForm) ∈ worded := by simp [worded]
  -- A word by itself begins with itself.
  have alone {word : String} {form : Form Command} (known : (word, form) ∈ worded) :
      forms.findSome? (· word.toList) = form word.toList := by
    have read := read_worded known []
    rwa [List.append_nil] at read
  cases spelled with
  | @advance gap blank millis short =>
    have number := number_toString (Nat.le_of_lt_succ short : millis ≤ longestAdvance)
    rw [List.append_assoc, read_worded advance]
    simp only [advanceForm, afterWord_append, afterGap_append blank (endsGap_numeral millis), number,
      Option.bind_eq_bind, Option.bind_some, Option.pure_def]
  | oneTick =>
    rw [alone tick]
    simp only [tickForm, afterWord_self, afterGap, Option.bind_eq_bind, Option.bind_some, Option.bind_none,
      Option.pure_def]
  | @ticks gap blank count few =>
    have number := number_toString (Nat.le_of_lt_succ few : count ≤ mostTicks)
    rw [List.append_assoc, read_worded tick]
    simp only [tickForm, afterWord_append, afterGap_append blank (endsGap_numeral count), number,
      Option.bind_eq_bind, Option.bind_some, Option.pure_def]
  | @wifiOn gap blank =>
    have ends : EndsGap "on".toList := by simp [EndsGap, gapChars]
    rw [List.append_assoc, read_worded wifi]
    simp only [wifiForm, afterWord_append, afterGap_append blank ends, afterWord_self, Option.bind_eq_bind,
      Option.bind_some, Option.pure_def]
  | @wifiOff gap blank =>
    have ends : EndsGap "off".toList := by simp [EndsGap, gapChars]
    have other : afterWord "on" "off".toList = none := by decide
    rw [List.append_assoc, read_worded wifi]
    simp only [wifiForm, afterWord_append, afterGap_append blank ends, afterWord_self, other, Option.bind_eq_bind,
      Option.bind_some, Option.pure_def]
  | help =>
    rw [alone help]
    simp only [helpForm, afterWord_self, afterGap, Option.bind_eq_bind, Option.bind_some, Option.pure_def]
  | @topic gap blank topic maximal =>
    rw [List.append_assoc, read_worded help]
    simp only [helpForm, afterWord_append, afterGap_append blank maximal, Option.bind_eq_bind, Option.bind_some,
      Option.pure_def, String.ofList_toList]
  | @word word command known =>
    have there : (word, plain word command) ∈ worded := by
      simp only [words, List.mem_cons, Prod.mk.injEq, List.not_mem_nil, or_false] at known
      rcases known with ⟨rfl, rfl⟩ | ⟨rfl, rfl⟩ | ⟨rfl, rfl⟩ | ⟨rfl, rfl⟩ | ⟨rfl, rfl⟩ | ⟨rfl, rfl⟩ | ⟨rfl, rfl⟩ <;>
        simp [worded]
    rw [alone there, plain, afterWord_self, Option.map_some]

end Forms

section Bytes

theorem byteLength_cons (c : Char) (text : List Char) : byteLength (c :: text) = c.utf8Size + byteLength text := by
  have shifted (n : Nat) : text.foldl (fun n c => n + c.utf8Size) n = n + byteLength text := by
    rw [byteLength]
    induction text generalizing n with
    | nil => rfl
    | cons d others ih =>
      rw [List.foldl_cons, List.foldl_cons, ih, ih (0 + d.utf8Size)]
      omega
  rw [byteLength, List.foldl_cons, shifted, Nat.zero_add]

/-- The bytes of a text are counted character by character. -/
theorem byteLength_toList (text : String) : byteLength text.toList = text.utf8ByteSize := by
  have counted (text : List Char) : byteLength text = (String.ofList text).utf8ByteSize := by
    induction text with
    | nil => rfl
    | cons c others ih =>
      have parts : String.ofList (c :: others) = String.singleton c ++ String.ofList others := by
        rw [String.singleton_eq_ofList, ← String.ofList_append]
        rfl
      rw [byteLength_cons, ih, parts, String.utf8ByteSize_append, String.utf8ByteSize_singleton]
  rw [counted, String.ofList_toList]

end Bytes

/-- No command is spelled by an empty line. -/
theorem Spells.ne_nil {line : List Char} {command : Command} (spelled : Spells line command) : line ≠ [] := by
  rintro rfl
  have read := spelled.read
  contradiction

theorem parse_of_spells {line : String} {command : Command} (spelled : Spells line.toList command) :
    parse line = .ok command := by
  simp only [parse, spelled.read]

/-- The grammar of commands. A line is read as a command exactly if it spells it, and no line spells two. Any
other line is refused, at its beginning or at a byte within it; the latter is where a character begins,
and the line up to there is read as a command. -/
theorem parse_grammar (line : String) :
    (∀ command, parse line = .ok command ↔ Spells line.toList command) ∧
      (∀ command other, Spells line.toList command → Spells line.toList other → command = other) ∧
      ∀ e, parse line = .error e → e.offset = 0 ∨
        0 < e.offset ∧ e.offset < line.utf8ByteSize ∧ (String.Pos.Raw.mk e.offset).IsValid line ∧
          ∃ taken rest, line = taken ++ rest ∧ taken.utf8ByteSize = e.offset ∧
            ∃ command, parse taken = .ok command := by
  -- What a form finds at the beginning of the line is a line for the command.
  have found {command : Command} {rest : List Char} (read : forms.findSome? (· line.toList) = some (command, rest)) :
      ∃ taken, line.toList = taken ++ rest ∧ Spells taken command := by
    obtain ⟨form, known, read⟩ := List.exists_of_findSome?_eq_some read
    exact sound_forms form known read
  refine ⟨fun command => ⟨fun parsed => ?_, parse_of_spells⟩, ?_, ?_⟩
  · unfold parse at parsed
    split at parsed
    · contradiction
    · next read =>
      obtain rfl := Except.ok.inj parsed
      obtain ⟨taken, same, spelled⟩ := found read
      rw [same, List.append_nil]
      exact spelled
    · contradiction
  · intro command other one two
    exact Except.ok.inj ((parse_of_spells one).symm.trans (parse_of_spells two))
  · intro e refused
    unfold parse at refused
    split at refused
    · obtain rfl := Except.error.inj refused
      exact .inl rfl
    · contradiction
    · next command rest more read =>
      obtain rfl := Except.error.inj refused
      obtain ⟨taken, same, spelled⟩ := found read
      obtain ⟨first, rfl⟩ : ∃ first : String, taken = first.toList := ⟨_, String.toList_ofList.symm⟩
      obtain ⟨last, rfl⟩ : ∃ last : String, rest = last.toList := ⟨_, String.toList_ofList.symm⟩
      obtain rfl : line = first ++ last := by
        rw [← String.toList_inj, String.toList_append]
        exact same
      have begun : 0 < first.utf8ByteSize := Nat.pos_of_ne_zero fun none =>
        spelled.ne_nil (by rw [String.utf8ByteSize_eq_zero_iff.mp none]; rfl)
      have left : 0 < last.utf8ByteSize := Nat.pos_of_ne_zero fun none =>
        more (by rw [String.utf8ByteSize_eq_zero_iff.mp none]; rfl)
      have bytes : byteLength (first ++ last).toList - byteLength last.toList = first.utf8ByteSize := by
        rw [byteLength_toList, byteLength_toList, String.utf8ByteSize_append, Nat.add_sub_cancel]
      rw [bytes, String.utf8ByteSize_append]
      exact .inr ⟨begun, Nat.lt_add_of_pos_right left,
        String.Pos.Raw.isValid_iff_exists_append.mpr ⟨first, last, rfl, rfl⟩, first, last, rfl, rfl, command,
        parse_of_spells spelled⟩

/-- A needless zero ends a number, and the topic of an explanation begins behind all that separates it. -/
theorem parse_grammar_needlessZero :
    parse "tick 010" = .error ⟨6⟩ ∧ (String.Pos.Raw.mk 6).IsValid "tick 010" ∧
      (∃ taken rest, "tick 010" = taken ++ rest ∧ taken.utf8ByteSize = 6 ∧ ∃ command, parse taken = .ok command) ∧
      Spells "help\t über".toList (.help (some "über")) ∧ ¬ Spells "help\t über".toList (.help (some " über")) := by
  obtain ⟨-, -, refused⟩ := parse_grammar "tick 010"
  obtain ⟨spells, one, -⟩ := parse_grammar "help\t über"
  have read : parse "help\t über" = .ok (.help (some "über")) := rfl
  have cut : parse "tick 010" = .error ⟨6⟩ := rfl
  rcases refused _ cut with beginning | ⟨-, -, boundary, taken⟩
  · contradiction
  · have spelled := (spells _).mp read
    exact ⟨cut, boundary, taken, spelled, fun other => by simpa using one _ _ spelled other⟩

end ConferenceBadge.Console.Command
