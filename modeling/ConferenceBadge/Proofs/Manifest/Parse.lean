import ConferenceBadge.Proofs.Manifest.Reading

/-!
What becomes of a manifest's text that is a JSON object. Its known members decide, and nothing else does:
neither their order, nor blanks, nor the members that nobody knows (`parse_object`).
-/
namespace ConferenceBadge.Manifest
open Json Reader

/-- An object's text is read as its known members, kept one after the other. -/
theorem read_object (t : ObjectText) :
    match (knownIn .manifest t.members).foldlM take .nothing with
    | some seen => read t.text.toList = .ok seen
    | none => ∃ cause, read t.text.toList = .error cause := by
  have opens : Opens true (.object .manifest) .nothing [] ⟨.nothing, [.object .manifest true], .next⟩ := rfl
  have inside := leads_members .nothing .manifest [] t.members opens
  have trailing (seen : Seen) (after : Reader) (ended : after = leave seen []) :
      Leads after t.after.text (some seen) fun seen after => after = leave seen [] := by
    subst ended
    exact ⟨_, on_blanks (by rintro (_ | _ | _ | _) <;> rfl) t.after, rfl⟩
  have whole := inside.andThen trailing
  rw [Option.bind_fun_some] at whole
  have text : t.text.toList = t.before.text ++ ('\x7b' :: ((t.members.text true ++ ['\x7d']) ++ t.after.text)) := by
    simp [ObjectText.text]
  have begins : initial.on t.text.toList =
      (Reader.mk .nothing [.object .manifest true] .next).on ((t.members.text true ++ ['\x7d']) ++ t.after.text) := by
    rw [text, on_of_on (on_blanks (by rintro (_ | _ | _ | _) <;> rfl) t.before)]
    exact on_of_step rfl _
  have ends : read t.text.toList = (do (← initial.on t.text.toList).atEnd) := rfl
  rw [ends, begins]
  cases kept : (knownIn .manifest t.members).foldlM take .nothing with
  | some seen =>
    rw [kept] at whole
    obtain ⟨_, read, rfl⟩ := whole
    rw [read]
    rfl
  | none =>
    rw [kept] at whole
    obtain ⟨cause, refused⟩ := whole
    exact ⟨cause, by rw [refused]; rfl⟩

/-- Two texts are taken for the same, whatever makes them unreadable if they are. -/
def Alike (one other : Except Rejection Manifest) : Prop :=
  one = other ∨ ∃ cause cause', one = .error (.malformed cause) ∧ other = .error (.malformed cause')

/-- A flawed object is malformed, and any other is what its known members declare. -/
theorem parse_of_known (t : ObjectText) :
    (Flawed (knownIn .manifest t.members) ∧ ∃ cause, parse t.text = .error (.malformed cause)) ∨
      ¬ Flawed (knownIn .manifest t.members) ∧
        match firstAbsent (knownIn .manifest t.members) with
        | some name => parse t.text = .error (.missing name)
        | none => ∃ m, parse t.text = .ok m ∧ Declares (knownIn .manifest t.members) m := by
  have outcome := read_object t
  have kept := Seen.Holds.nothing.fold (knownIn .manifest t.members)
  rw [List.nil_append] at kept
  cases result : (knownIn .manifest t.members).foldlM take .nothing with
  | none =>
    rw [result] at outcome kept
    obtain ⟨cause, refused⟩ := outcome
    exact .inl ⟨kept, cause, by rw [parse, refused]⟩
  | some seen =>
    rw [result] at outcome kept
    have parsed : parse t.text = ofSeen seen := by rw [parse, outcome]
    rw [parsed]
    exact .inr ⟨kept.sound, kept.ofSeen⟩

/-- Parsing is exact on objects. Whatever the order of the members, the blanks between them and the values
of members that nobody knows, a text that is an object is malformed exactly if a known key occurs twice in
it or has a value that is neither null nor of its type. Otherwise the first member is reported that has to
be there and is absent or null, and else the manifest has exactly the values of the known members. So two
objects that say the same of the known members, in any order, are taken for the same; they do where they
differ in the order of their members and in those that nobody knows. -/
theorem parse_object (t : ObjectText) :
    let known := knownIn .manifest t.members
    (Flawed known ↔ ∃ cause, parse t.text = .error (.malformed cause)) ∧
    (¬ Flawed known →
      match firstAbsent known with
      | some name => parse t.text = .error (.missing name)
      | none => ∃ m, parse t.text = .ok m ∧ Declares known m) ∧
    (∀ u : ObjectText, (knownIn .manifest u.members).Perm known → Alike (parse u.text) (parse t.text)) ∧
    ∀ u : ObjectText, ((pairs u.members).filter Scope.manifest.knows).Perm
      ((pairs t.members).filter Scope.manifest.knows) → (knownIn .manifest u.members).Perm known := by
  intro known
  have sound (t : ObjectText) (whole : ¬ Flawed (knownIn .manifest t.members)) :=
    (parse_of_known t).resolve_left fun flawed => whole flawed.1
  have malformed (t : ObjectText) (flawed : Flawed (knownIn .manifest t.members)) :=
    ((parse_of_known t).resolve_right fun whole => whole.1 flawed).2
  refine ⟨⟨malformed t, ?_⟩, fun whole => (sound t whole).2, ?_, fun u same => knownIn_perm same⟩
  · rintro ⟨cause, refused⟩
    by_contra whole
    have outcome := (sound t whole).2
    split at outcome
    · rw [refused] at outcome
      cases outcome
    · obtain ⟨m, parsed, -⟩ := outcome
      rw [refused] at parsed
      cases parsed
  · intro u same
    by_cases flawed : Flawed known
    · obtain ⟨cause, refused⟩ := malformed t flawed
      obtain ⟨cause', refused'⟩ := malformed u (flawed.perm same.symm)
      exact .inr ⟨cause', cause, refused', refused⟩
    · have one := (sound t flawed).2
      have other := (sound u fun flawed' => flawed (flawed'.perm same)).2
      rw [firstAbsent_perm same] at other
      left
      cases missing : firstAbsent known with
      | some name =>
        simp only [known] at missing
        rw [missing] at one other
        exact other.trans one.symm
      | none =>
        simp only [known] at missing
        rw [missing] at one other
        obtain ⟨m, parsed, declares⟩ := one
        obtain ⟨m', parsed', declares'⟩ := other
        rw [parsed, parsed', (declares'.perm same).unique flawed declares]

/-- The characters of a word that stand for themselves. -/
def letters (word : String) : List Letter :=
  word.toList.filterMap fun c => if allowed : ' ' ≤ c ∧ c ≠ '"' ∧ c ≠ '\\' then some (.plain c allowed) else none

/-- A text with a nested value that nobody knows, and brackets and a quote in a string. -/
def cluttered : ObjectText :=
  let two : Number := ⟨false, .positive 1 [], none, none⟩
  let large : Number := ⟨true, .positive 0 [5], some ⟨0, []⟩, some ⟨true, .plus, 9, []⟩⟩
  let inner : Members := .member [] (letters "loop") [] [] (.number large) [] (.close [.tab])
  let quoted : Value := .string (letters "]\x7d" ++ [.escape '"' (by decide)] ++ letters ",")
  let tags : Items := .item [] quoted [] (.item [.space] (.object inner) [] (.close []))
  let wifi : Members := .member [] (letters "setup") [] [.space] (.flag true) [] (.close [])
  ⟨[.lineFeed], .member [.space] (letters "tags") [] [] (.list tags) [] <|
    .member [] (letters "apiVersion") [.space] [] (.number two) [] <|
    .member [] (letters "wifi") [] [] (.object wifi) [.space] <|
    .member [] (letters "rtc") [] [] (.flag false) [] <|
    .member [] (letters "draw") [] [] (.flag true) [] <|
    .member [] (letters "loop") [] [] (.flag true) [] (.close []), []⟩

/-- The same manifest in another order, with nothing else. -/
def tidy : ObjectText :=
  let two : Number := ⟨false, .positive 1 [], none, none⟩
  let wifi : Members := .member [] (letters "setup") [] [] (.flag true) [] (.close [])
  ⟨[], .member [] (letters "draw") [] [] (.flag true) [] <| .member [] (letters "loop") [] [] (.flag true) [] <|
    .member [] (letters "rtc") [] [] (.flag false) [] <| .member [] (letters "wifi") [] [] (.object wifi) [] <|
    .member [] (letters "apiVersion") [] [] (.number two) [] (.close []), []⟩

theorem parse_object_cluttered :
    cluttered.text =
      "\n\x7b \"tags\":[\"]\x7d\\\",\", \x7b\"loop\":-15.0E+9\t\x7d],\"apiVersion\" :2,\"wifi\":\x7b\"setup\": true\x7d ,\"rtc\":false,\"draw\":true,\"loop\":true\x7d" ∧
    parse cluttered.text = .ok ⟨2, true, true, false, true, true⟩ ∧ Alike (parse tidy.text) (parse cluttered.text) := by
  obtain ⟨-, declared, same, -⟩ := parse_object cluttered
  have whole : ¬ Flawed (knownIn .manifest cluttered.members) := by decide
  obtain ⟨m, parsed, declares⟩ := declared whole
  have written : Declares (knownIn .manifest cluttered.members) ⟨2, true, true, false, true, true⟩ :=
    ⟨by decide, by decide, .inr (by decide), by decide, by decide, by decide⟩
  rw [declares.unique whole written] at parsed
  exact ⟨by decide, parsed, same tidy (by decide)⟩

end ConferenceBadge.Manifest
