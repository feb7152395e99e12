import ConferenceBadge.Proofs.Manifest.Reading

/-!
Manifests that are cut off. The reader goes over what is left of a text as it went over the whole, so only the end
of the text can make a difference. The end is an error as long as anything is open, and once nothing is, only blanks
may follow (`Reader.on_ended`). So what is left of a manifest is never accepted, whatever the reader passes over
without judging it, unless nothing but blanks is gone (`parse_cut_off`).
-/
namespace ConferenceBadge.Manifest

/-- Whether an error may come from the end of a text. -/
def ReadError.fromEnd : ReadError → Bool
  | listCutOff | objectCutOff | stringCutOff | valueCutOff | wordExpected => true
  | _ => false

namespace Reader

/-- The end of the text is an error everywhere but past the manifest. -/
theorem atEnd_cases (r : Reader) :
    (r.expecting = .nothing ∧ r.atEnd = .ok r.seen) ∨ ∃ cause, cause.fromEnd = true ∧ r.atEnd = .error cause := by
  obtain ⟨seen, frames, expecting⟩ := r
  have unclosed : ∃ cause, cause.fromEnd = true ∧ (Reader.mk seen frames .next).atEnd = .error cause := by
    rcases frames with _ | ⟨_ | _, outer⟩
    · exact ⟨.objectCutOff, rfl, rfl⟩
    · exact ⟨.objectCutOff, rfl, rfl⟩
    · exact ⟨.listCutOff, rfl, rfl⟩
  cases expecting with
  | nothing => exact .inl ⟨rfl, rfl⟩
  | next => exact .inr unclosed
  | digits n => exact .inr unclosed
  | opening => exact .inr ⟨.valueCutOff, rfl, rfl⟩
  | afterComma => exact .inr ⟨.valueCutOff, rfl, rfl⟩
  | value field => exact .inr ⟨.valueCutOff, rfl, rfl⟩
  | key read escaped => exact .inr ⟨.stringCutOff, rfl, rfl⟩
  | string escaped => exact .inr ⟨.stringCutOff, rfl, rfl⟩
  | delimiter => exact .inr ⟨.stringCutOff, rfl, rfl⟩
  | colon field => exact .inr ⟨.objectCutOff, rfl, rfl⟩
  | word letter rest => exact .inr ⟨.wordExpected, rfl, rfl⟩

theorem atEnd_ok {r : Reader} {seen : Seen} (ended : r.atEnd = .ok seen) : r.expecting = .nothing ∧ r.seen = seen := by
  rcases r.atEnd_cases with ⟨nothing, same⟩ | ⟨cause, -, refused⟩
  · rw [same] at ended
    exact ⟨nothing, Except.ok.inj ended⟩
  · rw [refused] at ended
    contradiction

/-- Past the manifest there may be blanks and nothing else. -/
theorem on_ended {r : Reader} (ended : r.expecting = .nothing) (text : List Char) :
    r.on text = if text.all isSpace then .ok r else .error .trailingCharacters := by
  induction text with
  | nil => rfl
  | cons c rest ih =>
    have stepped : r.step c = if isSpace c then .ok r else .error .trailingCharacters := by
      simp only [step, ended, stepSpaced]
    cases blank : isSpace c with
    | true =>
      rw [on_of_step (stepped.trans (if_pos blank)), ih, List.all_cons, blank, Bool.true_and]
    | false =>
      rw [on_cons, stepped, List.all_cons, blank]
      rfl

/-- A blank does not end the manifest. -/
theorem open_of_blank {r after : Reader} {c : Char} (blank : isSpace c = true) (unended : r.expecting ≠ .nothing)
    (stepped : r.step c = .ok after) : after.expecting ≠ .nothing := by
  have plain : c ≠ '"' ∧ c ≠ ',' ∧ c ≠ '\x7d' ∧ c ≠ ']' ∧ c.isDigit = false := by
    simp only [isSpace, Bool.or_eq_true, decide_eq_true_eq] at blank
    rcases blank with ((rfl | rfl) | rfl) | rfl <;> decide
  obtain ⟨quote, comma, brace, bracket, digit⟩ := plain
  obtain ⟨seen, frames, expecting⟩ := r
  have stays : ∀ e : Expecting, e ≠ .nothing →
      Except.ok (Reader.mk seen frames e) = (.ok after : Except ReadError Reader) → after.expecting ≠ .nothing := by
    rintro e other same
    obtain rfl := Except.ok.inj same
    exact other
  cases expecting with
  | nothing => exact absurd rfl unended
  | opening => exact stays _ unended (by simpa [step, blank] using stepped)
  | next => exact stays _ unended (by simpa [step, blank] using stepped)
  | afterComma => exact stays _ unended (by simpa [step, blank] using stepped)
  | colon field => exact stays _ unended (by simpa [step, blank] using stepped)
  | value field => exact stays _ unended (by simpa [step, blank] using stepped)
  | delimiter => exact stays _ unended (by simpa [step, comma, brace, bracket] using stepped)
  | digits n => exact stays .next (by simp) (by simpa [step, digit, blank, afterValue, expect] using stepped)
  | key read escaped =>
    exact stays (.key (c :: read) _) (by simp) (by simpa [step, quote, expect] using stepped)
  | string escaped => exact stays (.string _) (by simp) (by simpa [step, quote, expect] using stepped)
  | word letter rest =>
    simp only [step] at stepped
    split at stepped
    · cases rest with
      | nil => exact stays .next (by simp) stepped
      | cons next rest => exact stays (.word next rest) (by simp) stepped
    · contradiction

/-- So a reader that is past the manifest after blanks was there before them. -/
theorem ended_of_blanks {r after : Reader} {text : List Char} (blanks : text.all isSpace = true)
    (read : r.on text = .ok after) (ended : after.expecting = .nothing) : r.expecting = .nothing := by
  induction text generalizing r with
  | nil =>
    obtain rfl := Except.ok.inj read
    exact ended
  | cons c rest ih =>
    rw [List.all_cons, Bool.and_eq_true] at blanks
    rw [on_cons] at read
    cases stepped : r.step c with
    | error cause =>
      rw [stepped] at read
      contradiction
    | ok next =>
      rw [stepped] at read
      have there : next.expecting = .nothing := ih blanks.2 read
      by_contra unended
      exact open_of_blank blanks.1 unended stepped there

/-- What is left of a text that is read: it is read as well if nothing but blanks is gone, and otherwise its end is an
error. -/
theorem read_cut_off {kept removed : List Char} {seen : Seen} (whole : read (kept ++ removed) = .ok seen) :
    if removed.all isSpace then read kept = .ok seen else ∃ cause, cause.fromEnd = true ∧ read kept = .error cause := by
  have parts : read (kept ++ removed) = (do (← (← initial.on kept).on removed).atEnd) := read_append kept removed
  have left : read kept = (do (← initial.on kept).atEnd) := rfl
  rw [whole] at parts
  cases first : initial.on kept with
  | error cause =>
    rw [first] at parts
    contradiction
  | ok middle =>
    rw [first] at parts left
    replace left : read kept = middle.atEnd := left
    replace parts : .ok seen = (do (← middle.on removed).atEnd : Except ReadError Seen) := parts
    cases rest : middle.on removed with
    | error cause =>
      rw [rest] at parts
      contradiction
    | ok last =>
      rw [rest] at parts
      obtain ⟨ended, same⟩ := atEnd_ok parts.symm
      rw [left]
      split
      · next blanks =>
        have before : middle.expecting = .nothing := ended_of_blanks blanks rest ended
        rw [on_ended before, if_pos blanks] at rest
        obtain rfl := Except.ok.inj rest
        exact parts.symm
      · next solid =>
        -- Had the manifest ended in what is left, the rest would have been refused.
        rcases middle.atEnd_cases with ⟨before, -⟩ | error
        · rw [on_ended before, if_neg solid] at rest
          contradiction
        · exact error

end Reader

/-- The reader gets to the end of a text: the manifest is accepted, or lacks a member. -/
def Readable (text : String) : Prop := (∃ m, parse text = .ok m) ∨ ∃ name, parse text = .error (.missing name)

theorem Readable.read {text : String} (readable : Readable text) : ∃ seen, Reader.read text.toList = .ok seen := by
  cases read : Reader.read text.toList with
  | ok seen => exact ⟨seen, rfl⟩
  | error cause =>
    have malformed : parse text = .error (.malformed cause) := by rw [parse, read]
    rcases readable with ⟨m, accepted⟩ | ⟨name, lacking⟩
    · rw [malformed] at accepted
      contradiction
    · rw [malformed] at lacking
      cases lacking

/-- A manifest that is cut off is never accepted. If the reader gets to the end of a text, then what is left of that
text is malformed, with an error that the end of a text gives, as soon as anything but blanks is gone; and if only
blanks are gone, it is the same manifest. -/
theorem parse_cut_off (kept removed : String) (readable : Readable (kept ++ removed)) :
    ((∃ c ∈ removed.toList, Reader.isSpace c = false) →
      ∃ cause, cause.fromEnd = true ∧ parse kept = .error (.malformed cause)) ∧
    ((∀ c ∈ removed.toList, Reader.isSpace c = true) → parse kept = parse (kept ++ removed)) := by
  obtain ⟨seen, whole⟩ := readable.read
  have left := whole
  rw [String.toList_append] at left
  replace left := Reader.read_cut_off left
  constructor
  · rintro ⟨c, gone, solid⟩
    have mixed : ¬ removed.toList.all Reader.isSpace = true := by
      intro blanks
      rw [List.all_eq_true.mp blanks c gone] at solid
      contradiction
    rw [if_neg mixed] at left
    obtain ⟨cause, fromEnd, refused⟩ := left
    exact ⟨cause, fromEnd, by rw [parse, refused]⟩
  · intro blanks
    rw [if_pos (List.all_eq_true.mpr blanks)] at left
    rw [parse, parse, left, whole]

/-- A list that begins with a comma and a value that is none are passed over; without the last braces they are not. -/
theorem parse_cut_off_lenient :
    let kept := "\x7b\"tags\": [, nonsense, 1], \"apiVersion\": 2, \"wifi\": \x7b\"setup\": true"
    let removed := "\x7d, \"loop\": true\x7d\n"
    Readable (kept ++ removed) ∧ (∃ c ∈ removed.toList, Reader.isSpace c = false) ∧
      parse (kept ++ removed) = .error (.missing "rtc") ∧
      ∃ cause, cause.fromEnd = true ∧ parse kept = .error (.malformed cause) := by
  intro kept removed
  have lacking : parse (kept ++ removed) = .error (.missing "rtc") := by decide +kernel
  have solid : ∃ c ∈ removed.toList, Reader.isSpace c = false := ⟨'\x7d', by decide, rfl⟩
  exact ⟨.inr ⟨_, lacking⟩, solid, lacking, (parse_cut_off kept removed (.inr ⟨_, lacking⟩)).1 solid⟩

end ConferenceBadge.Manifest
