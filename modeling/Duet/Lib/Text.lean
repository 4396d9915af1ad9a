import Duet.Lib.Lines

/-!
# Texts

A text as the list of its characters, with the operations that a program uses to print it on one
line, to take it apart and to search it.
-/

namespace Duet.Lib

abbrev Text := List Char

/-- What follows a text in front. -/
def stripFront (text front : Text) : Option Text :=
  if front <+: text then some (text.drop front.length) else none

/-- The text without a last character, if it is that one. -/
def stripLast (last : Char) (text : Text) : Option Text :=
  if text.getLast? = some last then some text.dropLast else none

/-- A line without `\n` or `\r\n` at its end. -/
def stripLineEnding (line : Text) : Text :=
  match stripLast '\n' line with
  | none => line
  | some line => (stripLast '\r' line).getD line

/-- The lines of a text without their endings; the last one need not have one. -/
def textLines (text : Text) : List Text := (splitInclusive '\n' text).map stripLineEnding

/-- The lines with a `\n` between them. -/
def joinLines : List Text → Text
  | [] => []
  | line :: lines => line ++ lines.flatMap ('\n' :: ·)

def contains (text needle : Text) : Bool := decide (needle <:+: text)

/-- The characters of the general category Cc. -/
def isControl (c : Char) : Bool := decide (c.toNat < 0x20 ∨ 0x7f ≤ c.toNat ∧ c.toNat < 0xa0)

def backslash : Char := Char.ofNat 92

/-- `c.escape_default()` -/
def escapeDefault (c : Char) : Text :=
  if c = '\t' then [backslash, 't']
  else if c = '\r' then [backslash, 'r']
  else if c = '\n' then [backslash, 'n']
  else if c.toNat = 34 ∨ c.toNat = 39 ∨ c = backslash then [backslash, c]
  else if 0x20 ≤ c.toNat ∧ c.toNat ≤ 0x7e then [c]
  else backslash :: "u\x7b".toList ++ Nat.toDigits 16 c.toNat ++ "\x7d".toList

/-- The text on one line. -/
def escapeControlChars (value : Text) : Text :=
  value.flatMap fun c => if isControl c then escapeDefault c else [c]

/-- The digits of a number, as it is displayed. -/
def digitsOf (n : Nat) : Text := Nat.toDigits 10 n

/-! ## Lines -/

section Lines

variable {front text line : Text} {lines : List Text}

theorem stripFront_append (front text : Text) : stripFront (front ++ text) front = some text := by
  unfold stripFront
  rw [if_pos (List.prefix_append front text), List.drop_left]

/-- Neither of two texts that differ is in front of a text that begins with the other. -/
theorem stripFront_eq_none {other : Text} (differs : ¬ front <+: other)
    (differs' : ¬ other <+: front) : stripFront (other ++ text) front = none := by
  apply if_neg
  intro starts
  rcases List.prefix_or_prefix_of_prefix starts (List.prefix_append other text) with less | more
  · exact differs less
  · exact differs' more

theorem stripLast_concat (last : Char) (text : Text) :
    stripLast last (text ++ [last]) = some text := by
  unfold stripLast
  rw [if_pos List.getLast?_concat, List.dropLast_concat]

theorem stripLast_of_ne {last : Char} (differs : text.getLast? ≠ some last) :
    stripLast last text = none := if_neg differs

/-- A line ending is taken off, and nothing else when the line does not end with `\r`. -/
theorem stripLineEnding_concat (single : '\r' ∉ line) :
    stripLineEnding (line ++ ['\n']) = line := by
  have other : line.getLast? ≠ some '\r' := fun last => single (List.mem_of_getLast? last)
  unfold stripLineEnding
  rw [stripLast_concat]
  dsimp only
  rw [stripLast_of_ne other, Option.getD_none]

theorem stripLast_append {last : Char} (other : last ∉ front) :
    stripLast last (front ++ text) = (stripLast last text).map (front ++ ·) := by
  rcases List.eq_nil_or_concat' text with rfl | ⟨init, c, rfl⟩
  · have differs : (front ++ []).getLast? ≠ some last := by
      rw [List.append_nil]
      exact fun same => other (List.mem_of_getLast? same)
    rw [stripLast_of_ne differs]
    rfl
  · by_cases same : c = last
    · subst same
      rw [← List.append_assoc, stripLast_concat, stripLast_concat]
      rfl
    · rw [stripLast_of_ne (by simpa [← List.append_assoc] using same),
        stripLast_of_ne (by simpa using same)]
      rfl

/-- What stands in front of a line stays. -/
theorem stripLineEnding_append (newline : '\n' ∉ front) (ret : '\r' ∉ front) :
    stripLineEnding (front ++ line) = front ++ stripLineEnding line := by
  unfold stripLineEnding
  rw [stripLast_append newline]
  cases stripLast '\n' line with
  | none => rfl
  | some line =>
    rw [Option.map_some]
    dsimp only
    rw [stripLast_append ret]
    cases stripLast '\r' line with
    | none => rfl
    | some line => rfl

/-- Lines in front of a text are its first lines. -/
theorem textLines_unlines_append (single : ∀ line ∈ lines, '\n' ∉ line ∧ '\r' ∉ line) :
    textLines (unlines '\n' lines ++ text) = lines ++ textLines text := by
  unfold textLines
  rw [splitInclusive_unlines_append fun line mem => (single line mem).1, List.map_append,
    List.map_map]
  congr 1
  conv_rhs => rw [← List.map_id lines]
  apply List.map_congr_left
  intro line mem
  exact stripLineEnding_concat (single line mem).2

theorem splitInclusive_append_of_notMem (filled : front ≠ []) (newline : '\n' ∉ front) :
    splitInclusive '\n' (front ++ text) =
      (front ++ (splitInclusive '\n' text).headD []) :: (splitInclusive '\n' text).tail := by
  induction front with
  | nil => exact absurd rfl filled
  | cons c front ih =>
    have other : c ≠ '\n' := fun same => newline (by simp [same])
    have later : '\n' ∉ front := fun mem => newline (List.mem_cons_of_mem _ mem)
    rw [List.cons_append, splitInclusive, if_neg other]
    cases front with
    | nil =>
      rw [List.nil_append]
      cases splitInclusive '\n' text <;> rfl
    | cons c' front =>
      rw [ih (List.cons_ne_nil _ _) later]
      rfl

/-- A text after the beginning of a line continues that line. -/
theorem joinLines_textLines_append (filled : front ≠ []) (newline : '\n' ∉ front)
    (ret : '\r' ∉ front) : ∃ first rest, textLines (front ++ text) = (front ++ first) :: rest ∧
      first ++ rest.flatMap ('\n' :: ·) = joinLines (textLines text) := by
  unfold textLines
  rw [splitInclusive_append_of_notMem filled newline]
  cases splitInclusive '\n' text with
  | nil =>
    refine ⟨[], [], ?_, rfl⟩
    rw [List.map_cons, List.headD_nil, stripLineEnding_append newline ret]
    rfl
  | cons line lines =>
    refine ⟨stripLineEnding line, lines.map stripLineEnding, ?_, rfl⟩
    rw [List.map_cons, List.headD_cons, stripLineEnding_append newline ret, List.tail_cons]

end Lines

/-! ## Characters and searches -/

section Search

variable {text front : Text}

theorem exists_digitChar {base n : Nat} (large : 1 < base) {d : Char}
    (mem : d ∈ Nat.toDigits base n) : ∃ k < base, d = Nat.digitChar k := by
  induction n using Nat.strongRecOn with
  | ind n ih =>
    rw [Nat.toDigits_eq_if large] at mem
    split at mem
    · next small => exact ⟨n, small, List.mem_singleton.mp mem⟩
    · next big =>
      have positive : 0 < n := by omega
      rcases List.mem_append.mp mem with earlier | last
      · exact ih (n / base) (Nat.div_lt_self positive large) earlier
      · exact ⟨n % base, Nat.mod_lt n (by omega), List.mem_singleton.mp last⟩

theorem isControl_of_all (printable : text.all (fun c => !isControl c) = true) {d : Char}
    (mem : d ∈ text) : isControl d = false := by
  simpa using List.all_eq_true.mp printable d mem

/-- A character is escaped by characters that are none to escape. -/
theorem isControl_of_mem_escapeDefault {c d : Char} (mem : d ∈ escapeDefault c) :
    isControl d = false := by
  have hex : ∀ k < 16, isControl (Nat.digitChar k) = false := by decide
  unfold escapeDefault at mem
  split at mem
  · exact isControl_of_all (by decide) mem
  split at mem
  · exact isControl_of_all (by decide) mem
  split at mem
  · exact isControl_of_all (by decide) mem
  split at mem
  · next quoted =>
    rcases List.mem_cons.mp mem with rfl | mem
    · rfl
    · rw [List.mem_singleton.mp mem]
      unfold isControl
      have slash : backslash.toNat = 92 := rfl
      rcases quoted with double | single | same
      · simp [double]
      · simp [single]
      · simp [same, slash]
  split at mem
  · next graphic =>
    rw [List.mem_singleton.mp mem]
    unfold isControl
    simp only [decide_eq_false_iff_not]
    omega
  · simp only [List.cons_append, List.mem_cons, List.mem_append] at mem
    rcases mem with rfl | (before | digit) | after
    · rfl
    · exact isControl_of_all (by decide) before
    · obtain ⟨k, small, rfl⟩ := exists_digitChar (by decide) digit
      exact hex k small
    · exact isControl_of_all (by decide) after

theorem isControl_of_mem_escapeControlChars {d : Char} (mem : d ∈ escapeControlChars text) :
    isControl d = false := by
  obtain ⟨c, -, mem⟩ := List.mem_flatMap.mp mem
  split at mem
  · exact isControl_of_mem_escapeDefault mem
  · next printable =>
    rw [List.mem_singleton.mp mem]
    exact Bool.not_eq_true _ ▸ printable

/-- An escaped text stays on its line. -/
theorem notMem_escapeControlChars (text : Text) :
    '\n' ∉ escapeControlChars text ∧ '\r' ∉ escapeControlChars text := by
  constructor
  · intro mem
    exact absurd (isControl_of_mem_escapeControlChars mem) (by decide)
  · intro mem
    exact absurd (isControl_of_mem_escapeControlChars mem) (by decide)

theorem escapeControlChars_of_printable (printable : ∀ c ∈ text, isControl c = false) :
    escapeControlChars text = text := by
  induction text with
  | nil => rfl
  | cons c text ih =>
    have here := printable c List.mem_cons_self
    have later := ih fun c mem => printable c (List.mem_cons_of_mem _ mem)
    unfold escapeControlChars at later ⊢
    rw [List.flatMap_cons, later, if_neg (by simp [here])]
    rfl

/-- A text that stands in front of a list before a foreign element stands in front of the list. -/
theorem prefix_of_prefix_append_cons {α : Type} {l m rest : List α} {a : α} (foreign : a ∉ l)
    (starts : l <+: m ++ a :: rest) : l <+: m := by
  rcases List.prefix_or_prefix_of_prefix starts (List.prefix_append m (a :: rest)) with less | more
  · exact less
  · obtain ⟨more, rfl⟩ := more
    cases more with
    | nil => rw [List.append_nil]
    | cons b more =>
      obtain ⟨same, -⟩ := List.cons_prefix_cons.mp ((List.prefix_append_right_inj m).mp starts)
      exact absurd (by simp [same]) foreign

/-- In a text with one head before some digits, the head is found with those texts behind it that
the digits begin with. -/
theorem infix_iff_prefix_of_once {α : Type} {text front head digits known rest : List α} {close : α}
    (shown : text = front ++ (head ++ (digits ++ close :: rest)))
    (once : ∀ front rest front' rest', text = front ++ (head ++ rest) →
      text = front' ++ (head ++ rest') → front = front') (foreign : close ∉ known) :
    head ++ known <:+: text ↔ known <+: digits := by
  constructor
  · rintro ⟨front', rest', found⟩
    have there : text = front' ++ (head ++ (known ++ rest')) := by
      rw [← found, List.append_assoc, List.append_assoc]
    have same := once _ _ _ _ there shown
    rw [there, same] at shown
    have behind := List.append_cancel_left (List.append_cancel_left shown)
    exact prefix_of_prefix_append_cons foreign ⟨rest', behind⟩
  · rintro ⟨more, same⟩
    refine ⟨front, more ++ close :: rest, ?_⟩
    rw [shown, ← same]
    simp only [List.append_assoc]

/-- A head that is found at one index only stands in the text once. -/
theorem eq_of_found_at {α : Type} {text head : List α} {index : Nat}
    (found : ∀ i < text.length + 1, head <+: text.drop i → i = index)
    (front rest front' rest' : List α) (here : text = front ++ (head ++ rest))
    (there : text = front' ++ (head ++ rest')) : front = front' := by
  have at_index : ∀ front rest, text = front ++ (head ++ rest) → front = text.take index := by
    intro front rest same
    have starts : head <+: text.drop front.length := by
      rw [same, List.drop_left]
      exact List.prefix_append head rest
    have bound : front.length < text.length + 1 := by
      rw [same, List.length_append]
      omega
    rw [← found front.length bound starts, same, List.take_left]
  rw [at_index front rest here, at_index front' rest' there]

end Search

end Duet.Lib
