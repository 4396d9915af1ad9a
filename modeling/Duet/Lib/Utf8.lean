import Mathlib.Data.List.Basic

/-!
# UTF-8 texts as byte lists

Which byte lists are UTF-8 texts: they are closed under concatenation, and ASCII bytes can
be exchanged for other ASCII bytes.
-/

namespace Duet.Lib

/-- The UTF-8 bytes of a text. -/
def utf8 (chars : List Char) : List UInt8 := chars.flatMap String.utf8EncodeChar

/-- Whether bytes are those of a text. -/
def ValidUtf8 (bytes : List UInt8) : Prop := ∃ chars, bytes = utf8 chars

theorem isValidUTF8_iff {bytes : List UInt8} :
    bytes.toByteArray.IsValidUTF8 ↔ ValidUtf8 bytes := by
  constructor
  · intro ⟨chars, same⟩
    exact ⟨chars, List.toByteArray_inj.mp same⟩
  · intro ⟨chars, same⟩
    exact ⟨chars, congrArg List.toByteArray same⟩

theorem validUtf8_utf8 (chars : List Char) : ValidUtf8 (utf8 chars) := ⟨chars, rfl⟩

theorem ValidUtf8.append {front back : List UInt8} (left : ValidUtf8 front)
    (right : ValidUtf8 back) : ValidUtf8 (front ++ back) := by
  obtain ⟨chars, rfl⟩ := left
  obtain ⟨more, rfl⟩ := right
  exact ⟨chars ++ more, by simp [utf8]⟩

/-- Whether all bytes are ASCII. -/
def IsAscii (bytes : List UInt8) : Prop := ∀ byte ∈ bytes, byte.toNat < 128

instance (bytes : List UInt8) : Decidable (IsAscii bytes) :=
  List.decidableBAll (fun byte : UInt8 => byte.toNat < 128) bytes

theorem IsAscii.append {front back : List UInt8} (left : IsAscii front) (right : IsAscii back) :
    IsAscii (front ++ back) := List.forall_mem_append.mpr ⟨left, right⟩

/-- An ASCII byte is a character by itself. -/
theorem utf8EncodeChar_ascii {byte : UInt8} (ascii : byte.toNat < 128) :
    String.utf8EncodeChar (Char.ofNat byte.toNat) = [byte] := by
  have value : (Char.ofNat byte.toNat).val.toNat = byte.toNat := by
    have valid : byte.toNat.isValidChar := by
      left
      omega
    rw [Char.ofNat, dif_pos valid]
    rfl
  have le : (Char.ofNat byte.toNat).val.toNat ≤ 0x7f := by omega
  simp only [String.utf8EncodeChar]
  rw [if_pos le, value]
  simp

theorem validUtf8_of_ascii {bytes : List UInt8} (ascii : IsAscii bytes) :
    ValidUtf8 bytes := by
  induction bytes with
  | nil => exact ⟨[], rfl⟩
  | cons byte bytes ih =>
    have first : ValidUtf8 [byte] := ⟨[Char.ofNat byte.toNat], by
      simp [utf8, utf8EncodeChar_ascii (ascii byte List.mem_cons_self)]⟩
    exact first.append (ih fun other member => ascii other (List.mem_cons_of_mem _ member))

theorem toNat_ofNat_byte {n : Nat} (small : n < 256) : (UInt8.ofNat n).toNat = n := by
  rw [UInt8.toNat_ofNat']
  exact Nat.mod_eq_of_lt small

/-- The bytes of longer encodings are no ASCII bytes. -/
theorem ofNat_ne_ascii {n : Nat} {byte : UInt8} (ascii : byte.toNat < 128) (low : 128 ≤ n)
    (high : n < 256) : byte ≠ UInt8.ofNat n := by
  rintro rfl
  rw [toNat_ofNat_byte high] at ascii
  exact absurd ascii (Nat.not_lt.mpr low)

/-- A character with an ASCII byte in its encoding is that byte alone. -/
theorem utf8EncodeChar_of_mem_ascii {char : Char} {byte : UInt8} (ascii : byte.toNat < 128)
    (member : byte ∈ String.utf8EncodeChar char) : String.utf8EncodeChar char = [byte] := by
  have other := fun n => @ofNat_ne_ascii n byte ascii
  simp only [String.utf8EncodeChar] at member ⊢
  split at member
  · next small =>
    rw [if_pos small, List.mem_singleton.mp member]
  · exfalso
    (repeat' split at member) <;>
      simp only [List.mem_cons, List.not_mem_nil, or_false] at member
    · rcases member with here | here
      · exact other _ (by omega) (by omega) here
      · exact other _ (by omega) (by omega) here
    · rcases member with here | here | here
      · exact other _ (by omega) (by omega) here
      · exact other _ (by omega) (by omega) here
      · exact other _ (by omega) (by omega) here
    · rcases member with here | here | here | here
      · exact other _ (by omega) (by omega) here
      · exact other _ (by omega) (by omega) here
      · exact other _ (by omega) (by omega) here
      · exact other _ (by omega) (by omega) here

/-- An ASCII byte in a text separates two texts. -/
theorem ValidUtf8.split {front back : List UInt8} {byte : UInt8} (ascii : byte.toNat < 128)
    (valid : ValidUtf8 (front ++ byte :: back)) : ValidUtf8 front ∧ ValidUtf8 back := by
  obtain ⟨chars, same⟩ := valid
  induction chars generalizing front with
  | nil => simp [utf8] at same
  | cons char chars ih =>
    simp only [utf8, List.flatMap_cons] at same
    have first : ValidUtf8 (String.utf8EncodeChar char) := ⟨[char], by simp [utf8]⟩
    rcases List.append_eq_append_iff.mp same with ⟨middle, here, rest⟩ | ⟨middle, here, rest⟩
    · cases middle with
      | nil =>
        -- the byte begins the second character
        have more := @ih [] rest
        rw [List.append_nil] at here
        exact ⟨here ▸ first, more.2⟩
      | cons other middle =>
        -- the byte is one of the first character, and so all of it
        obtain ⟨rfl, behind⟩ := List.cons.inj rest
        have single := utf8EncodeChar_of_mem_ascii ascii (by rw [here]; simp)
        rw [single, List.singleton_eq_append_iff] at here
        rcases here with ⟨rfl, alone⟩ | ⟨_, alone⟩
        · have none : middle = [] := by simpa using alone
          subst none
          exact ⟨⟨[], rfl⟩, behind ▸ validUtf8_utf8 chars⟩
        · cases alone
    · obtain ⟨left, right⟩ := ih rest.symm
      exact ⟨here ▸ first.append left, right⟩

/-- ASCII bytes between two texts can be exchanged for other ones. -/
theorem ValidUtf8.replace {front old new back : List UInt8} (nonempty : old ≠ [])
    (oldAscii : IsAscii old) (newAscii : IsAscii new)
    (valid : ValidUtf8 (front ++ old ++ back)) : ValidUtf8 (front ++ new ++ back) := by
  obtain ⟨byte, rest, rfl⟩ := List.exists_cons_of_ne_nil nonempty
  rw [List.append_assoc] at valid
  obtain ⟨left, right⟩ := valid.split (oldAscii byte List.mem_cons_self)
  refine (left.append (validUtf8_of_ascii newAscii)).append ?_
  clear valid nonempty left
  have restAscii := fun other member => oldAscii other (List.mem_cons_of_mem byte member)
  clear oldAscii
  induction rest with
  | nil => exact right
  | cons next rest ih =>
    have later := (@ValidUtf8.split [] _ _ (restAscii next List.mem_cons_self) right).2
    exact ih later fun other member => restAscii other (List.mem_cons_of_mem _ member)

/-! ## Lossy decoding -/

/-- Whether a byte continues an encoding. -/
def isContinuation (byte : UInt8) : Bool := byte &&& 0xC0 = 0x80

/-- Whether a byte may stand second in an encoding of three or four bytes. -/
def isSecond (first second : UInt8) : Bool :=
  let n := second.toNat
  if first = 0xE0 then 0xA0 ≤ n && n ≤ 0xBF
  else if first = 0xED then 0x80 ≤ n && n ≤ 0x9F
  else if first = 0xF0 then 0x90 ≤ n && n ≤ 0xBF
  else if first = 0xF4 then 0x80 ≤ n && n ≤ 0x8F
  else isContinuation second

/-- The replacement character U+FFFD. -/
def replacement : Char := Char.ofNat 0xFFFD

/-- The payload of a byte of an encoding, the bits of its length marker removed. -/
def payload (byte : UInt8) (marker : Nat) : Nat := byte.toNat % marker

/-- The first character of some bytes, and how many bytes behind the first one belong to
it. A broken encoding is a replacement character, with those of its bytes that could have
begun an encoding. -/
def decodeFirst (first : UInt8) (rest : List UInt8) : Char × Nat :=
  let n := first.toNat
  let second := rest[0]?.getD 0
  let third := rest[1]?.getD 0
  let fourth := rest[2]?.getD 0
  if n < 0x80 then
    (Char.ofNat n, 0)
  else if 0xC2 ≤ n && n ≤ 0xDF then
    if !isContinuation second then (replacement, 0)
    else (Char.ofNat (payload first 32 * 64 + payload second 64), 1)
  else if 0xE0 ≤ n && n ≤ 0xEF then
    if !isSecond first second then (replacement, 0)
    else if !isContinuation third then (replacement, 1)
    else
      (Char.ofNat (payload first 16 * 4096 + payload second 64 * 64 + payload third 64), 2)
  else if 0xF0 ≤ n && n ≤ 0xF4 then
    if !isSecond first second then (replacement, 0)
    else if !isContinuation third then (replacement, 1)
    else if !isContinuation fourth then (replacement, 2)
    else
      (Char.ofNat (payload first 8 * 262144 + payload second 64 * 4096 + payload third 64 * 64 +
        payload fourth 64), 3)
  else
    (replacement, 0)

/-- `String::from_utf8_lossy`, for at most `fuel` characters. -/
def decodeLossy : Nat → List UInt8 → List Char
  | 0, _ => []
  | _ + 1, [] => []
  | fuel + 1, first :: rest =>
    let (char, more) := decodeFirst first rest
    char :: decodeLossy fuel (rest.drop more)

/-- `String::from_utf8_lossy`: every character takes at least one byte. -/
def fromUtf8Lossy (bytes : List UInt8) : List Char := decodeLossy bytes.length bytes

/-- The bytes behind the first one of an encoding continue it. -/
theorem isContinuation_ofNat {n : Nat} (small : n < 64) :
    isContinuation (UInt8.ofNat (n + 128)) = true := by
  have all : ∀ n : Fin 64, isContinuation (UInt8.ofNat (n + 128)) = true := by decide
  exact all ⟨n, small⟩

/-- The second byte of a longer encoding, by the numbers of both bytes. -/
theorem isSecond_ofNat {first n : Nat} (firstSmall : first < 256) (small : n < 64)
    (low : first = 0xE0 → 32 ≤ n) (surrogate : first = 0xED → n < 32)
    (four : first = 0xF0 → 16 ≤ n) (high : first = 0xF4 → n < 16) :
    isSecond (UInt8.ofNat first) (UInt8.ofNat (n + 128)) = true := by
  have value := toNat_ofNat_byte firstSmall
  have second := toNat_ofNat_byte (show n + 128 < 256 by omega)
  have same : ∀ byte : UInt8, UInt8.ofNat first = byte ↔ first = byte.toNat := by
    intro byte
    rw [← UInt8.toNat_inj, value]
  simp only [isSecond, same, second, isContinuation_ofNat small]
  split
  · next here => simp; have := low here; omega
  split
  · next here => simp; have := surrogate here; omega
  split
  · next here => simp; have := four here; omega
  split
  · next here => simp; have := high here; omega
  rfl

/-- Decoding the encoding of a character takes all its bytes and gives the character. -/
theorem decodeFirst_utf8EncodeChar (char : Char) (rest : List UInt8) :
    ∃ first more, String.utf8EncodeChar char = first :: more ∧
      decodeFirst first (more ++ rest) = (char, more.length) := by
  have decoded : ∀ {n}, n = char.val.toNat → Char.ofNat n = char := by
    rintro _ rfl
    exact Char.ofNat_toNat char
  have valid : char.val.toNat < 0xd800 ∨ 0xdfff < char.val.toNat ∧ char.val.toNat < 0x110000 :=
    char.valid
  simp only [String.utf8EncodeChar]
  generalize char.val.toNat = v at *
  have continuation : ∀ n, isContinuation (UInt8.ofNat (n % 64 + 128)) = true :=
    fun n => isContinuation_ofNat (Nat.mod_lt n (by decide))
  have behind : ∀ n, (UInt8.ofNat (n % 64 + 128)).toNat = n % 64 + 128 :=
    fun n => toNat_ofNat_byte (by omega)
  split
  · next one =>
    refine ⟨_, _, rfl, ?_⟩
    have first : (UInt8.ofNat v).toNat = v := toNat_ofNat_byte (by omega)
    simp only [decodeFirst, first]
    rw [if_pos (by omega), decoded rfl]
    rfl
  split
  · next more two =>
    refine ⟨_, _, rfl, ?_⟩
    have first : (UInt8.ofNat (v / 64 % 32 + 192)).toNat = v / 64 % 32 + 192 :=
      toNat_ofNat_byte (by omega)
    simp only [decodeFirst, first, List.cons_append, List.nil_append, List.getElem?_cons_zero,
      Option.getD_some, continuation, payload, behind]
    rw [if_neg (by omega), if_pos (by simp; omega), if_neg (by simp), decoded (by omega)]
    rfl
  split
  · next more three =>
    refine ⟨_, _, rfl, ?_⟩
    have first : (UInt8.ofNat (v / 4096 % 16 + 224)).toNat = v / 4096 % 16 + 224 :=
      toNat_ofNat_byte (by omega)
    have second : isSecond (UInt8.ofNat (v / 4096 % 16 + 224))
        (UInt8.ofNat (v / 64 % 64 + 128)) = true := by
      apply isSecond_ofNat <;> omega
    simp only [decodeFirst, first, List.cons_append, List.nil_append, List.getElem?_cons_zero,
      List.getElem?_cons_succ, Option.getD_some, second, continuation, payload, behind]
    rw [if_neg (by omega), if_neg (by simp), if_pos (by simp; omega), if_neg (by simp),
      if_neg (by simp), decoded (by omega)]
    rfl
  · next four =>
    refine ⟨_, _, rfl, ?_⟩
    have first : (UInt8.ofNat (v / 262144 % 8 + 240)).toNat = v / 262144 % 8 + 240 :=
      toNat_ofNat_byte (by omega)
    have second : isSecond (UInt8.ofNat (v / 262144 % 8 + 240))
        (UInt8.ofNat (v / 4096 % 64 + 128)) = true := by
      apply isSecond_ofNat <;> omega
    simp only [decodeFirst, first, List.cons_append, List.nil_append, List.getElem?_cons_zero,
      List.getElem?_cons_succ, Option.getD_some, second, continuation, payload, behind]
    rw [if_neg (by omega), if_neg (by simp), if_neg (by simp), if_pos (by simp; omega), if_neg (by simp), if_neg (by simp), if_neg (by simp),
      decoded (by omega)]
    rfl

/-- The bytes of a text are decoded to it. -/
theorem utf8_fromUtf8Lossy {bytes : List UInt8} (valid : ValidUtf8 bytes) :
    utf8 (fromUtf8Lossy bytes) = bytes := by
  have decodes : ∀ fuel chars, (utf8 chars).length ≤ fuel → decodeLossy fuel (utf8 chars) = chars := by
    intro fuel chars enough
    induction chars generalizing fuel with
    | nil => cases fuel <;> rfl
    | cons char chars ih =>
      obtain ⟨first, more, encoded, decoded⟩ := decodeFirst_utf8EncodeChar char (utf8 chars)
      have split : utf8 (char :: chars) = first :: (more ++ utf8 chars) := by
        simp [utf8, encoded]
      rw [split] at enough ⊢
      rw [List.length_cons, List.length_append] at enough
      cases fuel with
      | zero => omega
      | succ fuel =>
        simp only [decodeLossy, decoded, List.drop_left]
        rw [ih fuel (by omega)]
  obtain ⟨chars, rfl⟩ := valid
  rw [fromUtf8Lossy, decodes _ _ (Nat.le_refl _)]

/-- The second byte of a longer encoding, when the first one has an empty payload. -/
theorem low_of_isSecond {first second : UInt8} (isSecond : isSecond first second = true) :
    (first.toNat = 0xE0 → 32 ≤ second.toNat % 64) ∧ (first.toNat = 0xF0 → 16 ≤ second.toNat % 64) := by
  have same : ∀ byte : UInt8, first = byte ↔ first.toNat = byte.toNat :=
    fun byte => UInt8.toNat_inj.symm
  simp only [Lib.isSecond, same] at isSecond
  constructor
  · intro here
    rw [if_pos (show first.toNat = UInt8.toNat 0xE0 from here)] at isSecond
    simp at isSecond
    omega
  · intro here
    rw [if_neg (by rw [here]; decide), if_neg (by rw [here]; decide),
      if_pos (show first.toNat = UInt8.toNat 0xF0 from here)] at isSecond
    simp at isSecond
    omega

/-- A decoded character is an ASCII byte, zero, or no ASCII character. -/
theorem decodeFirst_ascii (first : UInt8) (rest : List UInt8) :
    first.toNat < 128 ∧ (decodeFirst first rest).1 = Char.ofNat first.toNat ∨
      (decodeFirst first rest).1 = Char.ofNat 0 ∨ 128 ≤ (decodeFirst first rest).1.val.toNat := by
  have large : ∀ n, 128 ≤ n → Char.ofNat n = Char.ofNat 0 ∨ 128 ≤ (Char.ofNat n).val.toNat := by
    intro n low
    by_cases valid : n.isValidChar
    · right
      rw [Char.ofNat, dif_pos valid]
      exact low
    · left
      rw [Char.ofNat, dif_neg valid]
      rfl
  have broken : replacement = Char.ofNat 0 ∨ 128 ≤ replacement.val.toNat := large _ (by decide)
  simp only [decodeFirst]
  split
  · next ascii => exact .inl ⟨ascii, rfl⟩
  right
  split
  · next two =>
    simp only [Bool.and_eq_true, decide_eq_true_eq] at two
    split
    · exact broken
    · exact large _ (by simp only [payload]; omega)
  split
  · next three =>
    simp only [Bool.and_eq_true, decide_eq_true_eq] at three
    split
    · exact broken
    next second =>
    split
    · exact broken
    · have low := low_of_isSecond (by simpa using second)
      exact large _ (by simp only [payload]; omega)
  split
  · next four =>
    simp only [Bool.and_eq_true, decide_eq_true_eq] at four
    split
    · exact broken
    next second =>
    split
    · exact broken
    split
    · exact broken
    · have low := low_of_isSecond (by simpa using second)
      exact large _ (by simp only [payload]; omega)
  · exact broken

/-- Decoding adds no ASCII byte but zero. -/
theorem mem_of_mem_fromUtf8Lossy {bytes : List UInt8} {byte : UInt8} (ascii : byte.toNat < 128)
    (nonzero : byte ≠ 0) (member : byte ∈ utf8 (fromUtf8Lossy bytes)) : byte ∈ bytes := by
  have decodes : ∀ fuel bytes, byte ∈ utf8 (decodeLossy fuel bytes) → byte ∈ bytes := by
    intro fuel
    induction fuel with
    | zero => simp [decodeLossy, utf8]
    | succ fuel ih =>
      intro bytes member
      cases bytes with
      | nil => simp [decodeLossy, utf8] at member
      | cons first rest =>
        simp only [decodeLossy, utf8, List.flatMap_cons, List.mem_append] at member
        rcases member with here | later
        · have single := utf8EncodeChar_of_mem_ascii ascii here
          have zero : String.utf8EncodeChar (Char.ofNat 0) = [0] := by decide
          rcases decodeFirst_ascii first rest with ⟨small, same⟩ | same | large
          · rw [same, utf8EncodeChar_ascii small] at single
            rw [List.cons.inj single |>.1]
            exact List.mem_cons_self
          · rw [same, zero] at single
            exact absurd (List.cons.inj single).1.symm nonzero
          · simp only [String.utf8EncodeChar] at single
            rw [if_neg (by omega)] at single
            (repeat' split at single) <;> simp at single
        · exact List.mem_cons_of_mem _ (List.mem_of_mem_drop (ih _ later))
  exact decodes _ _ member

/-- A text of some bytes is not empty. -/
theorem utf8_fromUtf8Lossy_ne_nil {bytes : List UInt8} (nonempty : bytes ≠ []) :
    utf8 (fromUtf8Lossy bytes) ≠ [] := by
  obtain ⟨first, rest, rfl⟩ := List.exists_cons_of_ne_nil nonempty
  obtain ⟨byte, more, encoded, _⟩ := decodeFirst_utf8EncodeChar (decodeFirst first rest).1 []
  simp [fromUtf8Lossy, decodeLossy, utf8, encoded]

/-- ASCII bytes are decoded to themselves. -/
theorem utf8_fromUtf8Lossy_ascii {bytes : List UInt8} (ascii : IsAscii bytes) :
    utf8 (fromUtf8Lossy bytes) = bytes :=
  utf8_fromUtf8Lossy (validUtf8_of_ascii ascii)

end Duet.Lib
