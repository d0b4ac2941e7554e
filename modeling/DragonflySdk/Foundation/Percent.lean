import DragonflySdk.Foundation.Text

/-!
# Percent-encoding

A byte is written `%XX` with upper case digits (`percentEncodeByte`) and read with digits of either
case. Reading is lenient, a `%` without two hex digits after it standing for itself
(`percentDecode`), or strict (`percentDecode?`); on well-formed bytes the two agree
(`percentDecode?_eq_some`). Encoding more bytes that are neither `%` nor hex digits does not change
what lenient reading gives (`EncodesTo.percentDecode`).

A component of an `application/x-www-form-urlencoded` query also writes a space as `+`. Such a
component is *escaped* byte by byte (`formEscape`), with the bytes that are letters, digits or
`-._~` kept. Escaping is injective (`formEscape_injective`) and writes none of `&`, `=`, `?` and
`#` (`formEscape_noDelimiter`).
-/

namespace DragonflySdk.Foundation

/-! ### Hex digits -/

/-- The upper case hex digit of a number below 16. -/
def hexDigit (n : Nat) : Char := if n < 10 then Char.ofNat (48 + n) else Char.ofNat (55 + n)

/-- The value of a hex digit, given as a byte. -/
def hexValue? (b : UInt8) : Option UInt8 :=
  if 48 ≤ b ∧ b ≤ 57 then some (b - 48)
  else if 65 ≤ b ∧ b ≤ 70 then some (b - 55)
  else if 97 ≤ b ∧ b ≤ 102 then some (b - 87)
  else none

/-- The byte as `%XX`. -/
def percentEncodeByte (b : UInt8) : Str :=
  ['%', hexDigit (b.toNat / 16), hexDigit (b.toNat % 16)]

/-! ### Reading percent-encoded bytes -/

/-- Every `%XX` replaced by the byte it stands for; any other `%` is kept. -/
def percentDecode : List UInt8 → List UInt8
  | [] => []
  | [a] => [a]
  | [a, b] => [a, b]
  | a :: b :: c :: rest =>
    match a == 37, hexValue? b, hexValue? c with
    | true, some high, some low => (high * 16 + low) :: percentDecode rest
    | _, _, _ => a :: percentDecode (b :: c :: rest)

/-- Every `%XX` replaced by the byte it stands for; nothing when some `%` is not followed by two
hex digits. -/
def percentDecode? : List UInt8 → Option (List UInt8)
  | [] => some []
  | [a] => if a == 37 then none else some [a]
  | [a, b] => if a == 37 || b == 37 then none else some [a, b]
  | a :: b :: c :: rest =>
    if a == 37 then
      match hexValue? b, hexValue? c with
      | some high, some low => (percentDecode? rest).map ((high * 16 + low) :: ·)
      | _, _ => none
    else (percentDecode? (b :: c :: rest)).map (a :: ·)

theorem percentDecode?_eq_some {bytes decoded : List UInt8}
    (h : percentDecode? bytes = some decoded) : percentDecode bytes = decoded := by
  induction bytes using percentDecode.induct generalizing decoded with
  | case1 => simpa [percentDecode?, percentDecode] using h
  | case2 a =>
    rw [percentDecode?] at h
    split_ifs at h
    simpa [percentDecode] using h
  | case3 a b =>
    rw [percentDecode?] at h
    split_ifs at h
    simpa [percentDecode] using h
  | case4 a b c rest high low ha hb hc ih =>
    rw [percentDecode?, ha, hb, hc] at h
    simp only [if_true, Option.map_eq_some_iff] at h
    obtain ⟨tail, htail, rfl⟩ := h
    rw [percentDecode, ha, hb, hc]
    simp only
    rw [ih htail]
  | case5 a b c rest hne ih =>
    rw [percentDecode?] at h
    split_ifs at h with ha
    · split at h
      · rename_i high low hb hc
        exact absurd hc (by intro hc; exact hne high low ha hb hc)
      · simp at h
    · simp only [Option.map_eq_some_iff] at h
      obtain ⟨tail, htail, rfl⟩ := h
      rw [percentDecode]
      split
      · rename_i ha' _ _
        exact absurd ha' ha
      · rw [ih htail]

/-- Two hex digits are at the start. -/
def startsHex : List UInt8 → Bool
  | b :: c :: _ => (hexValue? b).isSome && (hexValue? c).isSome
  | _ => false

theorem percentDecode_literal {a : UInt8} {rest : List UInt8} (h : a ≠ 37 ∨ startsHex rest = false) :
    percentDecode (a :: rest) = a :: percentDecode rest := by
  match rest with
  | [] => rfl
  | [b] => rfl
  | b :: c :: rest =>
    rw [percentDecode]
    split
    · rename_i high low ha hb hc
      rcases h with h | h
      · exact absurd (beq_iff_eq.mp ha) h
      · simp [startsHex, hb, hc] at h
    · rfl

theorem percentDecode_escape {b c high low : UInt8} {rest : List UInt8} (hb : hexValue? b = some high)
    (hc : hexValue? c = some low) :
    percentDecode (37 :: b :: c :: rest) = (high * 16 + low) :: percentDecode rest := by
  rw [percentDecode, hb, hc]
  rfl

theorem percentDecode_append_space (bytes : List UInt8) :
    percentDecode (bytes ++ [32]) = percentDecode bytes ++ [32] := by
  generalize hn : bytes.length = n
  induction n using Nat.strong_induction_on generalizing bytes with
  | _ n ih =>
    subst hn
    match bytes with
    | [] => rfl
    | a :: rest =>
      by_cases hesc : a = 37 ∧ startsHex rest = true
      · obtain ⟨rfl, hhex⟩ := hesc
        match rest with
        | [] => simp [startsHex] at hhex
        | [b] => simp [startsHex] at hhex
        | b :: c :: rest =>
          simp only [startsHex, Bool.and_eq_true, Option.isSome_iff_exists] at hhex
          obtain ⟨⟨high, hhigh⟩, ⟨low, hlow⟩⟩ := hhex
          rw [List.cons_append, List.cons_append, List.cons_append,
            percentDecode_escape hhigh hlow, percentDecode_escape hhigh hlow,
            ih _ (by simp; omega) rest rfl, List.cons_append]
      · have hstop : startsHex (rest ++ [32]) = startsHex rest := by
          match rest with
          | [] => rfl
          | [b] =>
            have hspace : hexValue? 32 = none := by decide
            simp [startsHex, hspace]
          | b :: c :: rest => rfl
        have hliteral : a ≠ 37 ∨ startsHex rest = false := by
          by_cases ha : a = 37
          · exact .inr (by simpa [ha] using hesc)
          · exact .inl ha
        rw [List.cons_append, percentDecode_literal hliteral,
          percentDecode_literal (hstop.symm ▸ hliteral), ih _ (by simp) rest rfl, List.cons_append]

/-! ### Encoding a set of bytes -/

theorem forall_byte {P : UInt8 → Prop} (h : ∀ n : Fin 256, P (UInt8.ofFin n)) (b : UInt8) : P b :=
  h b.toFin

/-- The hex digits of a byte, as bytes. -/
def hexHigh (b : UInt8) : UInt8 := UInt8.ofNat (hexDigit (b.toNat / 16)).toNat
def hexLow (b : UInt8) : UInt8 := UInt8.ofNat (hexDigit (b.toNat % 16)).toNat

set_option maxRecDepth 4000 in
theorem hexDigits_value : ∀ b : UInt8, ∃ high low, hexValue? (hexHigh b) = some high ∧
    hexValue? (hexLow b) = some low ∧ high * 16 + low = b := by
  refine forall_byte fun n => ⟨UInt8.ofNat (n / 16), UInt8.ofNat (n % 16), ?_⟩
  revert n
  decide +kernel

theorem utf8_percentEncodeByte : ∀ b : UInt8,
    utf8 (percentEncodeByte b) = [37, hexHigh b, hexLow b] := by
  refine forall_byte ?_
  decide +kernel

/-- `encoded` is `plain` with some bytes, neither `%` nor hex digits, percent-encoded. -/
inductive EncodesTo : List UInt8 → List UInt8 → Prop
  | nil : EncodesTo [] []
  | keep (b : UInt8) {plain encoded : List UInt8} :
      EncodesTo plain encoded → EncodesTo (b :: plain) (b :: encoded)
  | encode {b : UInt8} {plain encoded : List UInt8} : b ≠ 37 → hexValue? b = none →
      EncodesTo plain encoded → EncodesTo (b :: plain) (37 :: hexHigh b :: hexLow b :: encoded)

namespace EncodesTo
variable {plain encoded : List UInt8}

theorem startsHex (h : EncodesTo plain encoded) :
    Foundation.startsHex encoded = Foundation.startsHex plain := by
  have hpercent : hexValue? 37 = none := by decide
  cases h with
  | nil => rfl
  | keep b h =>
    cases h with
    | nil => rfl
    | keep c h => rfl
    | encode hne hhex h => simp [Foundation.startsHex, hhex, hpercent]
  | @encode b plain encoded hne hhex h =>
    cases plain <;> simp [Foundation.startsHex, hhex, hpercent]

/-- **Lenient reading does not see the extra encoding.** -/
theorem percentDecode (h : EncodesTo plain encoded) :
    Foundation.percentDecode encoded = Foundation.percentDecode plain := by
  induction hn : plain.length using Nat.strong_induction_on generalizing plain encoded with
  | _ n ih =>
    subst hn
    cases h with
    | nil => rfl
    | @encode b plain encoded hne hhex h =>
      obtain ⟨high, low, hhigh, hlow, hb⟩ := hexDigits_value b
      rw [percentDecode_escape hhigh hlow, hb, percentDecode_literal (.inl hne),
        ih _ (by simp) h rfl]
    | @keep b plain encoded h =>
      by_cases hesc : b = 37 ∧ Foundation.startsHex plain = true
      · obtain ⟨rfl, hhex⟩ := hesc
        -- both bytes after the `%` are hex digits, so neither is encoded
        cases h with
        | nil => rfl
        | @encode c plain encoded hne hnone h =>
          cases plain <;> simp [Foundation.startsHex, hnone] at hhex
        | @keep c plain encoded h =>
          cases h with
          | nil => rfl
          | @encode d plain encoded hne hnone h => simp [Foundation.startsHex, hnone] at hhex
          | @keep d plain encoded h =>
            simp only [Foundation.startsHex, Bool.and_eq_true, Option.isSome_iff_exists] at hhex
            obtain ⟨⟨high, hhigh⟩, ⟨low, hlow⟩⟩ := hhex
            rw [percentDecode_escape hhigh hlow, percentDecode_escape hhigh hlow,
              ih _ (by simp; omega) h rfl]
      · have hplain : b ≠ 37 ∨ Foundation.startsHex plain = false := by
          by_cases hb : b = 37
          · exact .inr (by simpa [hb] using hesc)
          · exact .inl hb
        rw [percentDecode_literal hplain, percentDecode_literal (h.startsHex ▸ hplain),
          ih _ (by simp) h rfl]

/-- A byte map that fixes `%` and hex digits, and whose images of encoded bytes are encodable. -/
theorem flatMap {set : UInt8 → Bool} {f : UInt8 → UInt8}
    (hset : ∀ b, set b = true → f b = b ∧ b ≠ 37 ∧ hexValue? b = none) (l : List UInt8) :
    EncodesTo (l.map f)
      (l.flatMap fun b => if set b then [37, hexHigh b, hexLow b] else [f b]) := by
  induction l with
  | nil => exact .nil
  | cons b l ih =>
    rw [List.map_cons, List.flatMap_cons]
    cases hb : set b with
    | true =>
      obtain ⟨hf, hne, hhex⟩ := hset b hb
      rw [hf]
      exact .encode hne hhex ih
    | false => exact .keep (f b) ih

end EncodesTo

/-- The bytes of `set` and every byte outside ASCII percent-encoded, the others as they are. -/
def utf8PercentEncode (set : UInt8 → Bool) (s : Str) : Str :=
  (utf8 s).flatMap fun b => if set b || 128 ≤ b then percentEncodeByte b else [Char.ofNat b.toNat]

/-- `utf8PercentEncode` for one character. -/
def encodeChar (set : UInt8 → Bool) (c : Char) : Str := utf8PercentEncode set [c]

theorem utf8PercentEncode_eq_flatMap (set : UInt8 → Bool) (s : Str) :
    utf8PercentEncode set s = s.flatMap (encodeChar set) := by
  induction s with
  | nil => rfl
  | cons c s ih =>
    rw [List.flatMap_cons, ← ih, encodeChar, utf8PercentEncode, utf8PercentEncode,
      utf8PercentEncode, utf8_cons, List.flatMap_append, utf8_cons, utf8_nil, List.append_nil]

theorem utf8_ofNat : ∀ b : UInt8, b < 128 → utf8 [Char.ofNat b.toNat] = [b] := by
  refine forall_byte ?_
  decide +kernel

theorem utf8_utf8PercentEncode (set : UInt8 → Bool) (s : Str) :
    utf8 (utf8PercentEncode set s) = (utf8 s).flatMap fun b =>
      if set b || 128 ≤ b then [37, hexHigh b, hexLow b] else [b] := by
  rw [utf8PercentEncode]
  induction utf8 s with
  | nil => rfl
  | cons b l ih =>
    rw [List.flatMap_cons, List.flatMap_cons, utf8_append, ih]
    congr 1
    split_ifs with hb
    · exact utf8_percentEncodeByte b
    · simp only [Bool.or_eq_true, decide_eq_true_eq, not_or] at hb
      exact utf8_ofNat b (UInt8.not_le.mp hb.2)

/-! ### Form components -/

/-- `+` stands for a space. -/
def plusToSpace (b : UInt8) : UInt8 := if b = 43 then 32 else b

/-- A component of a form-urlencoded query, read leniently. -/
def formDecode (bytes : List UInt8) : List UInt8 := percentDecode (bytes.map plusToSpace)

/-- A component of a form-urlencoded query, read strictly. -/
def formDecode? (bytes : List UInt8) : Option (List UInt8) := percentDecode? (bytes.map plusToSpace)

theorem formDecode?_eq_some {bytes decoded : List UInt8} (h : formDecode? bytes = some decoded) :
    formDecode bytes = decoded :=
  percentDecode?_eq_some h

/-- The separators of a query. -/
def separators : List Char := ['&', '=', ';']

/-- A set of bytes to percent-encode that a form decoder does not notice. -/
structure FormTransparent (set : UInt8 → Bool) : Prop where
  separator : ∀ c ∈ separators, set (UInt8.ofNat c.toNat) = false
  decoded : ∀ b, (set b || 128 ≤ b) = true → plusToSpace b = b ∧ b ≠ 37 ∧ hexValue? b = none

section transparent
variable {set : UInt8 → Bool}

theorem percentEncodeByte_noSeparator : ∀ b : UInt8,
    (percentEncodeByte b).all (fun c => !separators.contains c) = true := by
  refine forall_byte ?_
  decide +kernel

theorem encodeChar_separator (hset : FormTransparent set) :
    ∀ sep ∈ separators, encodeChar set sep = [sep] := by
  have hbyte : ∀ sep ∈ separators, utf8 [sep] = [UInt8.ofNat sep.toNat] ∧
      ¬ 128 ≤ UInt8.ofNat sep.toNat ∧ Char.ofNat (UInt8.ofNat sep.toNat).toNat = sep := by
    simp only [separators, List.forall_mem_cons, List.not_mem_nil, false_imp_iff, implies_true]
    decide
  intro sep hsep
  obtain ⟨hutf8, hlt, hchar⟩ := hbyte sep hsep
  unfold encodeChar utf8PercentEncode
  rw [hutf8, List.flatMap_singleton, hset.separator sep hsep, Bool.false_or,
    if_neg (by simpa using hlt), hchar]

theorem notMem_encodeChar {sep : Char} (hsep : sep ∈ separators) {c : Char} (hc : c ≠ sep) :
    sep ∉ encodeChar set c := by
  intro hmem
  obtain ⟨b, hb, htoken⟩ := List.mem_flatMap.mp hmem
  rw [utf8_cons, utf8_nil, List.append_nil] at hb
  split_ifs at htoken with hset
  · have := List.all_eq_true.mp (percentEncodeByte_noSeparator b) sep htoken
    simp [hsep] at this
  · simp only [Bool.or_eq_true, decide_eq_true_eq, not_or] at hset
    have hchar := (ascii_of_mem_utf8EncodeChar hb (UInt8.not_le.mp hset.2)).1
    rw [← hchar] at htoken
    exact hc (List.mem_singleton.mp htoken).symm

/-- **Form decoding does not see the extra encoding.** -/
theorem formDecode_utf8PercentEncode (hset : FormTransparent set) (s : Str) :
    formDecode (utf8 (utf8PercentEncode set s)) = formDecode (utf8 s) := by
  have hkeep : ∀ b : UInt8, [37, hexHigh b, hexLow b].map plusToSpace = [37, hexHigh b, hexLow b] := by
    refine forall_byte ?_
    decide +kernel
  have hmap : (utf8 (utf8PercentEncode set s)).map plusToSpace = (utf8 s).flatMap fun b =>
      if set b || 128 ≤ b then [37, hexHigh b, hexLow b] else [plusToSpace b] := by
    rw [utf8_utf8PercentEncode, List.map_flatMap]
    congr 1
    funext b
    split_ifs
    · exact hkeep b
    · rfl
  unfold formDecode
  rw [hmap]
  exact (EncodesTo.flatMap hset.decoded (utf8 s)).percentDecode

theorem splitOn_utf8PercentEncode (hset : FormTransparent set) {sep : Char} (hsep : sep ∈ separators)
    (s : Str) : (utf8PercentEncode set s).splitOn sep
      = (s.splitOn sep).map (utf8PercentEncode set) := by
  rw [utf8PercentEncode_eq_flatMap, splitOn_flatMap (encodeChar_separator hset sep hsep)
    fun c hc => notMem_encodeChar hsep hc]
  refine List.map_congr_left fun part _ => ?_
  rw [utf8PercentEncode_eq_flatMap]

theorem cut_utf8PercentEncode (hset : FormTransparent set) {sep : Char} (hsep : sep ∈ separators)
    (s : Str) : cut sep (utf8PercentEncode set s)
      = (utf8PercentEncode set (cut sep s).1, (cut sep s).2.map (utf8PercentEncode set)) := by
  rw [utf8PercentEncode_eq_flatMap, cut_flatMap (encodeChar_separator hset sep hsep)
    fun c hc => notMem_encodeChar hsep hc, utf8PercentEncode_eq_flatMap]
  congr 2
  funext part
  rw [utf8PercentEncode_eq_flatMap]

theorem contains_utf8PercentEncode (hset : FormTransparent set) {sep : Char}
    (hsep : sep ∈ separators) (s : Str) : (utf8PercentEncode set s).contains sep = s.contains sep := by
  rw [Bool.eq_iff_iff, List.contains_iff_mem, List.contains_iff_mem, utf8PercentEncode_eq_flatMap,
    List.mem_flatMap]
  constructor
  · rintro ⟨c, hc, hmem⟩
    by_cases h : c = sep
    · exact h ▸ hc
    · exact absurd hmem (notMem_encodeChar hsep h)
  · intro h
    exact ⟨sep, h, by rw [encodeChar_separator hset sep hsep]; exact List.mem_singleton_self sep⟩

theorem utf8PercentEncode_eq_nil {s : Str} : utf8PercentEncode set s = [] ↔ s = [] := by
  constructor
  · intro h
    have hbytes : utf8 s = [] := by
      refine List.eq_nil_iff_forall_not_mem.mpr fun b hb => ?_
      have := List.flatMap_eq_nil_iff.mp h b hb
      split_ifs at this
      simp [percentEncodeByte] at this
    exact utf8_injective (hbytes.trans utf8_nil.symm)
  · rintro rfl
    rfl

end transparent

/-- The bytes a form component keeps: letters, digits and `-._~`. -/
def unreserved (b : UInt8) : Bool :=
  (48 ≤ b && b ≤ 57) || (65 ≤ b && b ≤ 90) || (97 ≤ b && b ≤ 122) ||
    b == 45 || b == 46 || b == 95 || b == 126

/-- One byte of a form component. -/
def formEscapeByte (b : UInt8) : Str :=
  if unreserved b then [Char.ofNat b.toNat] else if b = 32 then ['+'] else percentEncodeByte b

/-- A form component: unreserved bytes kept, a space as `+`, every other byte as `%XX`. -/
def formEscape (bytes : List UInt8) : Str := bytes.flatMap formEscapeByte

@[simp] theorem formEscape_nil : formEscape [] = [] := rfl

/-- The byte a token of `formEscape` stands for. -/
def formToken : Str → UInt8
  | ['+'] => 32
  | [c] => UInt8.ofNat c.toNat
  | [_, x, y] => (hexValue? (UInt8.ofNat x.toNat)).getD 0 * 16 +
      (hexValue? (UInt8.ofNat y.toNat)).getD 0
  | _ => 0

theorem formToken_formEscapeByte : ∀ b : UInt8, formToken (formEscapeByte b) = b := by
  refine forall_byte ?_
  decide +kernel

theorem formEscapeByte_length : ∀ b : UInt8,
    (formEscapeByte b).length = if (formEscapeByte b).head? = some '%' then 3 else 1 := by
  refine forall_byte ?_
  decide +kernel

theorem formEscapeByte_ne_nil (b : UInt8) : formEscapeByte b ≠ [] := by
  intro hb
  have := formEscapeByte_length b
  rw [hb] at this
  simp at this

theorem formEscapeByte_append {a b : UInt8} {s t : Str}
    (h : formEscapeByte a ++ s = formEscapeByte b ++ t) : a = b ∧ s = t := by
  have hhead : (formEscapeByte a).head? = (formEscapeByte b).head? := by
    have := congrArg List.head? h
    rwa [List.head?_append_of_ne_nil _ (formEscapeByte_ne_nil a),
      List.head?_append_of_ne_nil _ (formEscapeByte_ne_nil b)] at this
  have hlen : (formEscapeByte a).length = (formEscapeByte b).length := by
    rw [formEscapeByte_length, formEscapeByte_length, hhead]
  obtain ⟨htoken, hrest⟩ := List.append_inj h hlen
  refine ⟨?_, hrest⟩
  rw [← formToken_formEscapeByte a, htoken, formToken_formEscapeByte]

theorem formEscape_cons (b : UInt8) (l : List UInt8) :
    formEscape (b :: l) = formEscapeByte b ++ formEscape l := rfl

theorem formEscape_injective : Function.Injective formEscape := by
  intro l
  induction l with
  | nil =>
    intro m h
    cases m with
    | nil => rfl
    | cons b m =>
      rw [formEscape_nil, formEscape_cons] at h
      exact absurd (List.append_eq_nil_iff.mp h.symm).1 (formEscapeByte_ne_nil b)
  | cons a l ih =>
    intro m h
    cases m with
    | nil =>
      rw [formEscape_nil, formEscape_cons] at h
      exact absurd (List.append_eq_nil_iff.mp h).1 (formEscapeByte_ne_nil a)
    | cons b m =>
      rw [formEscape_cons, formEscape_cons] at h
      obtain ⟨rfl, htail⟩ := formEscapeByte_append h
      rw [ih htail]

/-- The characters that delimit the parts of a url and of its query. -/
def delimiters : List Char := ['&', '=', '?', '#']

theorem formEscapeByte_noDelimiter : ∀ b : UInt8,
    (formEscapeByte b).all (fun c => !delimiters.contains c) = true := by
  refine forall_byte ?_
  decide +kernel

/-! ### Pairs -/

/-- The query of a list of pairs; no query without a pair. -/
def formEncode (pairs : List (List UInt8 × List UInt8)) : Option Str :=
  if pairs = [] then none
  else some (['&'].intercalate (pairs.map fun p => formEscape p.1 ++ '=' :: formEscape p.2))

theorem formEscape_noDelimiter {bytes : List UInt8} {c : Char} (hc : c ∈ formEscape bytes) :
    c ∉ delimiters := by
  obtain ⟨b, _, hb⟩ := List.mem_flatMap.mp hc
  have := List.all_eq_true.mp (formEscapeByte_noDelimiter b) c hb
  simpa using this

theorem formPair_injective : Function.Injective
    fun p : List UInt8 × List UInt8 => formEscape p.1 ++ '=' :: formEscape p.2 := by
  rintro ⟨k, v⟩ ⟨k', v'⟩ h
  have hnot : ∀ bytes, '=' ∉ formEscape bytes := fun bytes hmem =>
    formEscape_noDelimiter hmem (by decide)
  have hsplit := congrArg (splitOnce '=') h
  rw [splitOnce_append _ (hnot k), splitOnce_append _ (hnot k')] at hsplit
  obtain ⟨hk, hv⟩ := Prod.mk.injEq .. ▸ Option.some.inj hsplit
  exact Prod.ext (formEscape_injective hk) (formEscape_injective hv)

theorem formPair_noAmpersand (p : List UInt8 × List UInt8) :
    '&' ∉ formEscape p.1 ++ '=' :: formEscape p.2 := by
  intro hmem
  rcases List.mem_append.mp hmem with hmem | hmem
  · exact formEscape_noDelimiter hmem (by decide)
  · rcases List.mem_cons.mp hmem with h | hmem
    · exact absurd h (by decide)
    · exact formEscape_noDelimiter hmem (by decide)

/-- **A query determines its pairs**, an absent one being the query of no pair. -/
theorem formEncode_injective : Function.Injective formEncode := by
  intro l m h
  rw [formEncode, formEncode] at h
  split_ifs at h with hl hm hm
  · rw [hl, hm]
  · have hsplit := congrArg (·.splitOn '&') (Option.some.inj h)
    have hparts : ∀ pairs : List (List UInt8 × List UInt8), pairs ≠ [] →
        (['&'].intercalate (pairs.map fun p => formEscape p.1 ++ '=' :: formEscape p.2)).splitOn '&'
          = pairs.map fun p => formEscape p.1 ++ '=' :: formEscape p.2 := by
      intro pairs hne
      refine List.splitOn_intercalate '&' ?_ (by simpa using hne)
      intro part hpart
      obtain ⟨p, _, rfl⟩ := List.mem_map.mp hpart
      exact formPair_noAmpersand p
    simp only [hparts l hl, hparts m hm] at hsplit
    exact List.map_injective_iff.mpr formPair_injective hsplit

theorem of_mem_formEncode {pairs : List (List UInt8 × List UInt8)} {q : Str}
    (h : formEncode pairs = some q) {c : Char} (hc : c ∈ q) :
    c = '&' ∨ c = '=' ∨ ∃ b, c ∈ formEscapeByte b := by
  rw [formEncode] at h
  split_ifs at h
  rw [← Option.some.inj h] at hc
  rcases of_mem_intercalate hc with ⟨part, hpart, hc⟩ | hc
  · obtain ⟨p, _, rfl⟩ := List.mem_map.mp hpart
    rcases List.mem_append.mp hc with hc | hc
    · obtain ⟨b, _, hb⟩ := List.mem_flatMap.mp hc
      exact .inr (.inr ⟨b, hb⟩)
    · rcases List.mem_cons.mp hc with hc | hc
      · exact .inr (.inl hc)
      · obtain ⟨b, _, hb⟩ := List.mem_flatMap.mp hc
        exact .inr (.inr ⟨b, hb⟩)
  · exact .inl (List.mem_singleton.mp hc)

theorem formEncode_noDelimiter {pairs : List (List UInt8 × List UInt8)} {q : Str}
    (h : formEncode pairs = some q) : '?' ∉ q ∧ '#' ∉ q := by
  have htoken : ∀ c ∈ delimiters, ¬ ∃ b, c ∈ formEscapeByte b := by
    rintro c hc ⟨b, hb⟩
    have := List.all_eq_true.mp (formEscapeByte_noDelimiter b) c hb
    simp [hc] at this
  constructor
  · intro hmem
    rcases of_mem_formEncode h hmem with hc | hc | hc
    · exact absurd hc (by decide)
    · exact absurd hc (by decide)
    · exact htoken '?' (by decide) hc
  · intro hmem
    rcases of_mem_formEncode h hmem with hc | hc | hc
    · exact absurd hc (by decide)
    · exact absurd hc (by decide)
    · exact htoken '#' (by decide) hc

/-! ### Reading a form component back -/

theorem percentDecode?_literal {a : UInt8} (ha : a ≠ 37) (rest : List UInt8) :
    percentDecode? (a :: rest) = (percentDecode? rest).map (a :: ·) := by
  match rest with
  | [] => simp [percentDecode?, ha]
  | [b] => by_cases hb : b = 37 <;> simp [percentDecode?, ha, hb]
  | b :: c :: rest => simp [percentDecode?, ha]

theorem percentDecode?_escape (b : UInt8) (rest : List UInt8) :
    percentDecode? (37 :: hexHigh b :: hexLow b :: rest) = (percentDecode? rest).map (b :: ·) := by
  obtain ⟨high, low, hhigh, hlow, hvalue⟩ := hexDigits_value b
  rw [percentDecode?, if_pos (by decide), hhigh, hlow]
  simp only [hvalue]

theorem formDecode?_formEscapeByte_append (b : UInt8) (rest : List UInt8) :
    formDecode? (utf8 (formEscapeByte b) ++ rest) = (formDecode? rest).map (b :: ·) := by
  have hunreserved : ∀ b, unreserved b = true → b < 128 ∧ plusToSpace b = b ∧ b ≠ 37 := by
    refine forall_byte ?_
    decide +kernel
  have hkeep : ∀ b : UInt8, [37, hexHigh b, hexLow b].map plusToSpace = [37, hexHigh b, hexLow b] := by
    refine forall_byte ?_
    decide +kernel
  unfold formDecode? formEscapeByte
  rw [List.map_append]
  split_ifs with hb hspace
  · obtain ⟨hlt, hplus, hpercent⟩ := hunreserved b hb
    rw [utf8_ofNat b hlt, List.map_singleton, hplus, List.singleton_append,
      percentDecode?_literal hpercent]
  · rw [hspace, show (utf8 ['+']).map plusToSpace = [32] by decide, List.singleton_append,
      percentDecode?_literal (by decide)]
  · rw [utf8_percentEncodeByte, hkeep]
    exact percentDecode?_escape b _

/-- **A form component is read back**, strictly. -/
theorem formDecode?_formEscape (bytes : List UInt8) :
    formDecode? (utf8 (formEscape bytes)) = some bytes := by
  induction bytes with
  | nil => rfl
  | cons b bytes ih =>
    rw [formEscape_cons, utf8_append, formDecode?_formEscapeByte_append, ih, Option.map_some]

end DragonflySdk.Foundation
