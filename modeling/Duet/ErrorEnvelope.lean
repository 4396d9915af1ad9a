import Duet.SyncError

/-!
# The envelope of an error

A structured error that was sent as a text is read back with its fields escaped, whatever its
message looks like. The kind of a message that shows nothing but the number of a system error is
the kind of the first known code that the digits of the number begin with.
-/

namespace Duet

open Lib

namespace StructuredSyncError

/-! ## Reading an error back -/

section Fields

variable {fields : Fields} {lines : List Text}

/-- What the lines of an error begin with. -/
def heads : List Text :=
  ["side: ".toList, "operation: ".toList, "path: ".toList, "kind: ".toList, "source: ".toList,
    "message: ".toList]

/-- A line begins with one of the heads only. -/
theorem stripFront_other {head other : Text} (here : head ∈ heads) (there : other ∈ heads)
    (differs : head ≠ other) (value : Text) : stripFront (other ++ value) head = none := by
  have apart : ∀ head ∈ heads, ∀ other ∈ heads, head ≠ other → ¬ head <+: other := by decide
  exact stripFront_eq_none (apart head here other there differs)
    (apart other there head here differs.symm)

theorem parseFields_side (value : Text) :
    parseFields (("side: ".toList ++ value) :: lines) fields =
      parseFields lines { fields with side := some value } := by
  rw [parseFields, stripFront_append]

theorem parseFields_operation (value : Text) :
    parseFields (("operation: ".toList ++ value) :: lines) fields =
      parseFields lines { fields with operation := some value } := by
  rw [parseFields, stripFront_other (by decide) (by decide) (by decide), stripFront_append]

theorem parseFields_path (value : Text) :
    parseFields (("path: ".toList ++ value) :: lines) fields =
      parseFields lines { fields with path := some value } := by
  rw [parseFields]
  iterate 2 rw [stripFront_other (by decide) (by decide) (by decide)]
  rw [stripFront_append]

theorem parseFields_kind (value : Text) :
    parseFields (("kind: ".toList ++ value) :: lines) fields =
      parseFields lines { fields with kind := some value } := by
  rw [parseFields]
  iterate 3 rw [stripFront_other (by decide) (by decide) (by decide)]
  rw [stripFront_append]

theorem parseFields_source (value : Text) :
    parseFields (("source: ".toList ++ value) :: lines) fields =
      parseFields lines { fields with sources := fields.sources ++ [value] } := by
  rw [parseFields]
  iterate 4 rw [stripFront_other (by decide) (by decide) (by decide)]
  rw [stripFront_append]

theorem parseFields_message (value : Text) :
    parseFields (("message: ".toList ++ value) :: lines) fields =
      { fields with message := some (value ++ lines.flatMap ('\n' :: ·)) } := by
  rw [parseFields]
  iterate 5 rw [stripFront_other (by decide) (by decide) (by decide)]
  rw [stripFront_append]

theorem parseFields_sources (sources : List Text) :
    parseFields (sources.map ("source: ".toList ++ ·) ++ lines) fields =
      parseFields lines { fields with sources := fields.sources ++ sources } := by
  induction sources generalizing fields with
  | nil => rw [List.map_nil, List.nil_append, List.append_nil]
  | cons source sources ih =>
    rw [List.map_cons, List.cons_append, parseFields_source, ih]
    simp

end Fields

theorem isDigit_of_mem_digitsOf {n : Nat} {c : Char} (mem : c ∈ digitsOf n) : c.isDigit = true :=
  Nat.isDigit_of_mem_toDigits (by decide) (by decide) mem

theorem parseU8_digitsOf (n : UInt8) : parseU8 (digitsOf n.toNat) = some n := by
  have unsigned : stripFront (digitsOf n.toNat) ['+'] = none := by
    apply if_neg
    intro starts
    exact absurd (isDigit_of_mem_digitsOf (starts.subset List.mem_cons_self)) (by decide)
  have number : Nat.ofDigitChars 10 (digitsOf n.toNat) 0 = n.toNat := by simp [digitsOf]
  have digits : (digitsOf n.toNat).all Char.isDigit = true :=
    List.all_eq_true.mpr fun c => isDigit_of_mem_digitsOf
  have filled : digitsOf n.toNat ≠ [] := Nat.toDigits_ne_nil
  unfold parseU8
  rw [unsigned, Option.getD_none]
  dsimp only
  rw [if_neg (by simp [filled, digits]), number, if_pos n.toNat_lt, UInt8.ofNat_toNat]

/-- The lines of the header have no line endings. -/
theorem notMem_header (e : StructuredSyncError) {line : Text} (mem : line ∈ e.header) :
    '\n' ∉ line ∧ '\r' ∉ line := by
  have escaped : ∀ head ∈ heads, ∀ value, '\n' ∉ head ++ escapeControlChars value ∧
      '\r' ∉ head ++ escapeControlChars value := by
    intro head isHead value
    have printed : ∀ head ∈ heads, '\n' ∉ head ∧ '\r' ∉ head := by decide
    have here := printed head isHead
    have there := notMem_escapeControlChars value
    simp [here, there]
  have version : '\n' ∉ "duet-sync-error-v".toList ++ digitsOf e.version.toNat ∧
      '\r' ∉ "duet-sync-error-v".toList ++ digitsOf e.version.toNat := by
    have digits : ∀ c ∈ digitsOf e.version.toNat, c.isDigit = true :=
      fun c => isDigit_of_mem_digitsOf
    constructor
    · intro mem
      rcases List.mem_append.mp mem with here | there
      · exact absurd here (by decide)
      · exact absurd (digits _ there) (by decide)
    · intro mem
      rcases List.mem_append.mp mem with here | there
      · exact absurd here (by decide)
      · exact absurd (digits _ there) (by decide)
  simp only [header, List.mem_append, List.mem_cons, List.not_mem_nil, or_false,
    List.mem_map] at mem
  rcases mem with (((rfl | rfl | rfl) | ⟨path, -, rfl⟩) | rfl) | ⟨source, -, rfl⟩
  · exact version
  all_goals exact escaped _ (by decide) _

/-- The fields that the header and the message give. -/
theorem parseFields_header (e : StructuredSyncError) (value : Text) (lines : List Text) :
    parseFields (e.header.tail ++ ("message: ".toList ++ value) :: lines) {} = {
      side := some (escapeControlChars e.side)
      operation := some (escapeControlChars e.operation)
      path := e.path.map escapeControlChars
      kind := some (escapeControlChars e.kind)
      sources := e.sources.map escapeControlChars
      message := some (value ++ lines.flatMap ('\n' :: ·)) } := by
  have sources : e.sources.map (fun source => "source: ".toList ++ escapeControlChars source) =
      (e.sources.map escapeControlChars).map ("source: ".toList ++ ·) := by
    rw [List.map_map]
    rfl
  unfold header
  rw [sources]
  cases e.path with
  | none =>
    change parseFields (("side: ".toList ++ _) :: ("operation: ".toList ++ _) ::
      ("kind: ".toList ++ _) :: (List.map ("source: ".toList ++ ·) _ ++ _)) {} = _
    rw [parseFields_side, parseFields_operation, parseFields_kind, parseFields_sources,
      parseFields_message]
    rfl
  | some path =>
    change parseFields (("side: ".toList ++ _) :: ("operation: ".toList ++ _) ::
      ("path: ".toList ++ _) :: ("kind: ".toList ++ _) ::
      (List.map ("source: ".toList ++ ·) _ ++ _)) {} = _
    rw [parseFields_side, parseFields_operation, parseFields_path, parseFields_kind,
      parseFields_sources, parseFields_message]
    rfl

/-- An error is read back with its fields on one line each and the line endings of its message
made equal. -/
theorem parse_display (e : StructuredSyncError) :
    parse e.display = some { e with
      side := escapeControlChars e.side
      operation := escapeControlChars e.operation
      path := e.path.map escapeControlChars
      kind := escapeControlChars e.kind
      sources := e.sources.map escapeControlChars
      message := joinLines (textLines e.message) } := by
  have front : '\n' ∉ "message: ".toList ∧ '\r' ∉ "message: ".toList := by decide
  have filled : "message: ".toList ≠ [] := by decide
  obtain ⟨first, rest, message, joined⟩ :=
    @joinLines_textLines_append _ e.message filled front.1 front.2
  have lines : textLines e.display = ("duet-sync-error-v".toList ++ digitsOf e.version.toNat) ::
      (e.header.tail ++ ("message: ".toList ++ first) :: rest) := by
    unfold display
    rw [textLines_unlines_append fun line => e.notMem_header, message]
    rfl
  unfold parse
  rw [lines]
  dsimp only
  rw [stripFront_append, Option.bind_eq_bind, Option.bind_some, parseU8_digitsOf,
    parseFields_header, joined]
  rfl

/-! ## Kinds -/

/-- The texts that show a kind without a number. -/
def phrases : List Text :=
  ["disk quota exceeded".toList, "quota exceeded".toList, "no space left on device".toList,
    "no space left".toList, "permission denied".toList, "permissiondenied".toList,
    "no such file or directory".toList, "not a directory".toList]

/-- The only evidence in a lower-case text is one number of a system error, in parentheses. -/
structure OnlyOsError (text : Text) (code : Nat) : Prop where
  noPhrase : ∀ phrase ∈ phrases, contains text phrase = false
  shown : contains text ('(' :: osError code ++ [')']) = true
  once : ∀ front rest front' rest', text = front ++ ("os error ".toList ++ rest) →
    text = front' ++ ("os error ".toList ++ rest') → front = front'

/-- The kind of the number of a system error. -/
def kindOfCode (code : Nat) : Text :=
  if code = edquot then "quota_exceeded".toList
  else if code = enospc then "no_space".toList
  else if code = 13 then "permission_denied".toList
  else if code = 2 then "not_found".toList
  else if code = 20 then "not_directory".toList
  else "other".toList

/-- The number is one of these codes, or its digits begin with the digits of none of them. -/
def OwnCode (code : Nat) : Prop :=
  (code = edquot ∨ code = enospc ∨ code = 13 ∨ code = 2) ∨
  ∀ known ∈ [edquot, enospc, 13, 2], ¬ digitsOf known <+: digitsOf code

theorem paren_notMem_digitsOf (n : Nat) : ')' ∉ digitsOf n :=
  fun mem => absurd (isDigit_of_mem_digitsOf mem) (by decide)

/-- A known code is found in the text if the digits of the number begin with it. -/
theorem OnlyOsError.contains_iff {text : Text} {code : Nat} (only : OnlyOsError text code)
    (known : Nat) : contains text (osError known) = true ↔ digitsOf known <+: digitsOf code := by
  obtain ⟨front, rest, shown⟩ := of_decide_eq_true only.shown
  have here : text =
      (front ++ ['(']) ++ ("os error ".toList ++ (digitsOf code ++ ')' :: rest)) := by
    rw [← shown]
    unfold osError
    generalize "os error ".toList = head
    simp only [List.append_assoc, List.cons_append, List.nil_append]
  exact decide_eq_true_iff.trans
    (infix_iff_prefix_of_once here only.once (paren_notMem_digitsOf known))

/-- Without phrases the kind is that of the first code that the digits begin with. -/
theorem classifyErrorMessage_of_only {toLowercase : Text → Text} {message : Text} {code : Nat}
    (only : OnlyOsError (toLowercase message) code) :
    classifyErrorMessage toLowercase message =
      if digitsOf edquot <+: digitsOf code then "quota_exceeded".toList
      else if digitsOf enospc <+: digitsOf code then "no_space".toList
      else if digitsOf 13 <+: digitsOf code then "permission_denied".toList
      else if digitsOf 2 <+: digitsOf code then "not_found".toList
      else if digitsOf 20 <+: digitsOf code then "not_directory".toList
      else "other".toList := by
  have absent : ∀ phrase ∈ phrases, contains (toLowercase message) phrase = false := only.noPhrase
  simp only [phrases, List.forall_mem_cons] at absent
  obtain ⟨disk, quota, device, space, permission, joined, file, directory, -⟩ := absent
  have permission_eq : "os error 13".toList = osError 13 := by decide
  have file_eq : "os error 2".toList = osError 2 := by decide
  have directory_eq : "os error 20".toList = osError 20 := by decide
  unfold classifyErrorMessage
  rw [permission_eq, file_eq, directory_eq]
  dsimp only
  rw [disk, quota, device, space, permission, joined, file, directory]
  simp only [Bool.false_or, only.contains_iff]

theorem kindOfCode_of_notMem {code : Nat} (unknown : code ∉ [edquot, enospc, 13, 2, 20]) :
    kindOfCode code = "other".toList := by
  simp only [List.mem_cons, List.not_mem_nil, or_false, not_or] at unknown
  obtain ⟨quota, space, permission, file, directory⟩ := unknown
  unfold kindOfCode
  rw [if_neg quota, if_neg space, if_neg permission, if_neg file, if_neg directory]

/-- The kinds of the known codes are different. -/
theorem eq_of_kindOfCode_eq {code known : Nat} (isKnown : known ∈ [edquot, enospc, 13, 2])
    (same : kindOfCode code = kindOfCode known) : code = known := by
  have apart : ∀ known ∈ [edquot, enospc, 13, 2], kindOfCode known ≠ "other".toList ∧
      ∀ code ∈ [edquot, enospc, 13, 2, 20], kindOfCode code = kindOfCode known → code = known := by
    decide
  by_cases mem : code ∈ [edquot, enospc, 13, 2, 20]
  · exact (apart known isKnown).2 code mem same
  · rw [kindOfCode_of_notMem mem] at same
    exact absurd same.symm (apart known isKnown).1

/-- The first code that the digits begin with gives the kind of the number when it is the number
itself, or when there is none. -/
theorem kindOfCode_iff (code : Nat) :
    (if digitsOf edquot <+: digitsOf code then "quota_exceeded".toList
      else if digitsOf enospc <+: digitsOf code then "no_space".toList
      else if digitsOf 13 <+: digitsOf code then "permission_denied".toList
      else if digitsOf 2 <+: digitsOf code then "not_found".toList
      else if digitsOf 20 <+: digitsOf code then "not_directory".toList
      else "other".toList) = kindOfCode code ↔ OwnCode code := by
  constructor
  · intro same
    split at same
    · exact .inl (.inl (eq_of_kindOfCode_eq (by decide) same.symm))
    · next quota =>
      split at same
      · exact .inl (.inr (.inl (eq_of_kindOfCode_eq (by decide) same.symm)))
      · next space =>
        split at same
        · exact .inl (.inr (.inr (.inl (eq_of_kindOfCode_eq (by decide) same.symm))))
        · next permission =>
          split at same
          · exact .inl (.inr (.inr (.inr (eq_of_kindOfCode_eq (by decide) same.symm))))
          · next file =>
            refine .inr fun known isKnown => ?_
            simp only [List.mem_cons, List.not_mem_nil, or_false] at isKnown
            rcases isKnown with rfl | rfl | rfl | rfl
            · exact quota
            · exact space
            · exact permission
            · exact file
  · rintro (own | unlike)
    · rcases own with rfl | rfl | rfl | rfl <;> decide
    · have file : ¬ digitsOf 2 <+: digitsOf code := unlike 2 (by decide)
      have directory : ¬ digitsOf 20 <+: digitsOf code := fun starts =>
        file (List.IsPrefix.trans (by decide) starts)
      rw [if_neg (unlike edquot (by decide)), if_neg (unlike enospc (by decide)),
        if_neg (unlike 13 (by decide)), if_neg file, if_neg directory, kindOfCode_of_notMem]
      intro isKnown
      have itself : ∀ known ∈ [edquot, enospc, 13, 2], code ≠ known :=
        fun known isKnown same => unlike known isKnown (same ▸ List.prefix_refl _)
      have notDirectory : code ≠ 20 := fun same => directory (same ▸ List.prefix_refl _)
      simp only [List.mem_cons, List.not_mem_nil, or_false] at isKnown
      rcases isKnown with same | same | same | same | same
      · exact itself _ (by decide) same
      · exact itself _ (by decide) same
      · exact itself _ (by decide) same
      · exact itself _ (by decide) same
      · exact notDirectory same

/-- The kinds have no characters to escape. -/
theorem escapeControlChars_kind (toLowercase : Text → Text) (message : Text) :
    escapeControlChars (classifyErrorMessage toLowercase message) =
      classifyErrorMessage toLowercase message := by
  have printed : ∀ kind ∈ ["quota_exceeded".toList, "no_space".toList, "permission_denied".toList,
      "not_found".toList, "not_directory".toList, "other".toList],
      escapeControlChars kind = kind := by decide
  apply printed
  unfold classifyErrorMessage
  dsimp only
  split_ifs <;> simp only [List.mem_cons, true_or, or_true]

/-- An error is read back with its fields escaped and its message up to line endings. A message that
shows only the number of a system error has the kind of that number exactly when the number is one
of four codes or begins with none of them. -/
theorem parse_display_and_kind_iff (toLowercase : Text → Text) (side operation : Text)
    (path : Option Text) (message : Text) (sources : List Text) :
    let e := fromMessageAndSources toLowercase side operation path message sources
    parse e.display = some { e with
      side := escapeControlChars side
      operation := escapeControlChars operation
      path := path.map escapeControlChars
      sources := sources.map escapeControlChars
      message := joinLines (textLines message) } ∧
    ∀ code, OnlyOsError (toLowercase (classificationText message sources)) code →
      (e.kind = kindOfCode code ↔ OwnCode code) := by
  intro e
  constructor
  · have read := e.parse_display
    rw [show escapeControlChars e.kind = e.kind from escapeControlChars_kind _ _] at read
    exact read
  · intro code only
    rw [← kindOfCode_iff code, ← classifyErrorMessage_of_only only]
    exact Iff.rfl

/-- `ENOTDIR` in the words of another language: the digits of 20 begin with those of `ENOENT`. -/
theorem kind_notDirectory :
    let e := fromMessage (List.map Char.toLower) "local".toList "scan".toList none
      "Ist kein Verzeichnis (os error 20)".toList
    OnlyOsError (List.map Char.toLower (classificationText e.message e.sources)) 20 ∧
      e.kind ≠ kindOfCode 20 := by
  refine ⟨⟨by decide, by decide, ?_⟩, by decide⟩
  apply @eq_of_found_at _ _ _ 22
  decide

end StructuredSyncError

end Duet
