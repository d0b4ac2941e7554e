import Mathlib.Data.Char
import Mathlib.Data.List.DropRight
import Mathlib.Data.List.Lex
import Mathlib.Data.List.TakeWhile
import Mathlib.Order.Basic
import Mathlib.Tactic.Common

/-!
# Text and its UTF-8 bytes

Text is the list of its Unicode scalar values (`Str`), stored as UTF-8 (`utf8`). The encoding is
injective and a homomorphism, so equal bytes are equal text (`utf8_inj`).

Bytes that came from elsewhere are read back *lossily* (`fromUtf8Lossy`): every maximal part of an
ill-formed sequence becomes one U+FFFD. Well-formed bytes are read back exactly
(`fromUtf8Lossy_utf8`), and they are the only ones that are (`validUtf8_iff`).

Text is split at a separator once (`splitOnce`, `cut`) or everywhere (`List.splitOn`); a rewriting
of characters that keeps the separator apart commutes with both.
-/

namespace DragonflySdk.Foundation

/-- Text, as its Unicode scalar values in order. -/
abbrev Str := List Char

instance instLawfulBEqStr : LawfulBEq Str := inferInstance

/-- The UTF-8 bytes of a text. -/
def utf8 (s : Str) : List UInt8 := s.flatMap String.utf8EncodeChar

@[simp] theorem utf8_nil : utf8 [] = [] := rfl

@[simp] theorem utf8_cons (c : Char) (s : Str) :
    utf8 (c :: s) = String.utf8EncodeChar c ++ utf8 s := rfl

@[simp] theorem utf8_append (s t : Str) : utf8 (s ++ t) = utf8 s ++ utf8 t :=
  List.flatMap_append

theorem utf8_injective : Function.Injective utf8 := by
  intro s t h
  have hencode : s.utf8Encode = t.utf8Encode := congrArg List.toByteArray h
  have hdecode := congrArg ByteArray.utf8Decode? hencode
  rw [List.utf8Decode?_utf8Encode, List.utf8Decode?_utf8Encode] at hdecode
  exact List.toArray_inj (Option.some.inj hdecode)

theorem utf8_inj {s t : Str} : utf8 s = utf8 t ↔ s = t := utf8_injective.eq_iff

/-- What texts are ordered by: their bytes. -/
def textOrder (s : Str) : List Nat := (utf8 s).map UInt8.toNat

theorem textOrder_injective : Function.Injective textOrder :=
  (List.map_injective_iff.mpr fun _ _ => UInt8.toNat_inj.mp).comp utf8_injective

theorem ascii_of_mem_utf8EncodeChar {c : Char} {b : UInt8} (hb : b ∈ String.utf8EncodeChar c)
    (hlt : b < 128) : c = Char.ofNat b.toNat ∧ String.utf8EncodeChar c = [b] := by
  have hcontinuation : ∀ n m k : Nat, 128 ≤ m → n % k + m < 256 → ¬ UInt8.ofNat (n % k + m) < 128 := by
    intro n m k hm hlt h
    have := UInt8.lt_iff_toNat_lt.mp h
    simp only [UInt8.toNat_ofNat', UInt8.reduceToNat] at this
    omega
  unfold String.utf8EncodeChar at hb ⊢
  simp only at hb ⊢
  split_ifs at hb ⊢ with h₁ h₂ h₃
  · have hb' := List.mem_singleton.mp hb
    have hn : b.toNat = c.val.toNat := by
      rw [hb', UInt8.toNat_ofNat']
      omega
    refine ⟨?_, by rw [hb']⟩
    rw [hn]
    exact (Char.ofNat_toNat c).symm
  all_goals
    exfalso
    simp only [List.mem_cons, List.not_mem_nil, or_false] at hb
  · rcases hb with rfl | rfl <;> exact hcontinuation _ _ _ (by omega) (by omega) hlt
  · rcases hb with rfl | rfl | rfl <;> exact hcontinuation _ _ _ (by omega) (by omega) hlt
  · rcases hb with rfl | rfl | rfl | rfl <;> exact hcontinuation _ _ _ (by omega) (by omega) hlt

theorem utf8EncodeChar_ascii {c : Char} (hc : c.toNat < 128) :
    String.utf8EncodeChar c = [UInt8.ofNat c.toNat] := by
  have hle : c.val.toNat ≤ 127 := Nat.lt_succ_iff.mp hc
  unfold String.utf8EncodeChar
  simp only
  rw [if_pos hle]
  rfl

theorem utf8_length_of_ascii {s : Str} (hs : ∀ c ∈ s, c.toNat < 128) :
    (utf8 s).length = s.length := by
  induction s with
  | nil => rfl
  | cons c s ih =>
    rw [utf8_cons, utf8EncodeChar_ascii (hs c List.mem_cons_self), List.singleton_append,
      List.length_cons, List.length_cons, ih fun d hd => hs d (List.mem_cons_of_mem c hd)]

/-! ### Reading bytes back -/

/-- The character a byte sequence starts with, if it starts with a well-formed one. -/
def decodeChar? (bytes : List UInt8) : Option Char := bytes.toByteArray.utf8DecodeChar? 0

/-- The bytes that one U+FFFD stands for, at the start of a sequence that does not start with a
well-formed character: the longest prefix that some well-formed character has, at least one byte. -/
def illFormedLength : List UInt8 → Nat
  | first :: second :: rest =>
    let follows : Bool :=
      (first = 0xE0 ∧ 0xA0 ≤ second ∧ second ≤ 0xBF) ∨
      (0xE1 ≤ first ∧ first ≤ 0xEC ∧ 0x80 ≤ second ∧ second ≤ 0xBF) ∨
      (first = 0xED ∧ 0x80 ≤ second ∧ second ≤ 0x9F) ∨
      (0xEE ≤ first ∧ first ≤ 0xEF ∧ 0x80 ≤ second ∧ second ≤ 0xBF) ∨
      (first = 0xF0 ∧ 0x90 ≤ second ∧ second ≤ 0xBF) ∨
      (0xF1 ≤ first ∧ first ≤ 0xF3 ∧ 0x80 ≤ second ∧ second ≤ 0xBF) ∨
      (first = 0xF4 ∧ 0x80 ≤ second ∧ second ≤ 0x8F)
    if follows then
      match rest with
      | third :: _ => if 0xF0 ≤ first ∧ 0x80 ≤ third ∧ third ≤ 0xBF then 3 else 2
      | [] => 2
    else 1
  | _ => 1

/-- `fromUtf8Lossy` with a bound on the characters it reads. -/
def fromUtf8LossyUpTo : Nat → List UInt8 → Str
  | _, [] => []
  | 0, _ :: _ => []
  | n + 1, b :: bytes =>
    match decodeChar? (b :: bytes) with
    | some c => c :: fromUtf8LossyUpTo n ((b :: bytes).drop c.utf8Size)
    | none => '\uFFFD' :: fromUtf8LossyUpTo n ((b :: bytes).drop (illFormedLength (b :: bytes)))

/-- The text of a byte sequence, every ill-formed part replaced by U+FFFD. -/
def fromUtf8Lossy (bytes : List UInt8) : Str := fromUtf8LossyUpTo bytes.length bytes

theorem toByteArray_append (l m : List UInt8) :
    (l ++ m).toByteArray = l.toByteArray ++ m.toByteArray := by
  simp

theorem decodeChar?_encode_append (c : Char) (bytes : List UInt8) :
    decodeChar? (String.utf8EncodeChar c ++ bytes) = some c := by
  rw [decodeChar?, toByteArray_append]
  have h := ByteArray.utf8DecodeChar?_utf8EncodeChar_append (b := bytes.toByteArray) (c := c)
  exact h

theorem fromUtf8LossyUpTo_utf8 (s : Str) :
    ∀ n, (utf8 s).length ≤ n → fromUtf8LossyUpTo n (utf8 s) = s := by
  induction s with
  | nil => intro n _; cases n <;> rfl
  | cons c s ih =>
    intro n hn
    have hlen : (String.utf8EncodeChar c).length = c.utf8Size := String.length_utf8EncodeChar c
    have hpos := Char.utf8Size_pos c
    rw [utf8_cons, List.length_append] at hn
    rw [utf8_cons]
    obtain ⟨b, rest, hcons⟩ : ∃ b rest, String.utf8EncodeChar c ++ utf8 s = b :: rest := by
      cases h : String.utf8EncodeChar c ++ utf8 s with
      | nil =>
        have := congrArg List.length h
        rw [List.length_append, List.length_nil] at this
        omega
      | cons b rest => exact ⟨b, rest, rfl⟩
    cases n with
    | zero => omega
    | succ n =>
      rw [hcons, fromUtf8LossyUpTo, ← hcons, decodeChar?_encode_append]
      simp only
      rw [← hlen, List.drop_left, ih n (by omega)]

/-- **Well-formed bytes are read back exactly.** -/
@[simp] theorem fromUtf8Lossy_utf8 (s : Str) : fromUtf8Lossy (utf8 s) = s :=
  fromUtf8LossyUpTo_utf8 s _ le_rfl

/-- The bytes are the UTF-8 of some text: reading them back loses nothing. -/
def ValidUtf8 (bytes : List UInt8) : Prop := utf8 (fromUtf8Lossy bytes) = bytes

instance (bytes : List UInt8) : Decidable (ValidUtf8 bytes) :=
  inferInstanceAs (Decidable (_ = _))

theorem validUtf8_utf8 (s : Str) : ValidUtf8 (utf8 s) := by
  rw [ValidUtf8, fromUtf8Lossy_utf8]

theorem validUtf8_iff {bytes : List UInt8} : ValidUtf8 bytes ↔ ∃ s, utf8 s = bytes := by
  constructor
  · intro h
    exact ⟨_, h⟩
  · rintro ⟨s, rfl⟩
    exact validUtf8_utf8 s

theorem ValidUtf8.of_append_ascii {bytes : List UInt8} {b : UInt8} (hb : b < 128)
    (h : ValidUtf8 (bytes ++ [b])) : ValidUtf8 bytes := by
  obtain ⟨t, ht⟩ := validUtf8_iff.mp h
  rcases List.eq_nil_or_concat' t with rfl | ⟨t', c, rfl⟩
  · simp at ht
  · rw [utf8_append, utf8_cons, utf8_nil, List.append_nil] at ht
    rcases List.eq_nil_or_concat' (String.utf8EncodeChar c) with hnil | ⟨front, last, hlast⟩
    · exact absurd hnil String.utf8EncodeChar_ne_nil
    · rw [hlast, ← List.append_assoc, List.append_singleton_inj] at ht
      obtain ⟨hfront, rfl⟩ := ht
      have hmem : last ∈ String.utf8EncodeChar c := by
        rw [hlast]
        exact List.mem_append_right _ List.mem_cons_self
      have hsingle := (ascii_of_mem_utf8EncodeChar hmem hb).2
      rw [hlast, List.append_eq_singleton_iff] at hsingle
      have hfront' : front = [] := by simpa using hsingle
      rw [hfront', List.append_nil] at hfront
      exact validUtf8_iff.mpr ⟨t', hfront⟩

/-! ### Prefixes -/

/-- The text after a prefix. -/
def stripPrefix (pre s : Str) : Option Str :=
  if pre.isPrefixOf s then some (s.drop pre.length) else none

theorem stripPrefix_append (pre s : Str) : stripPrefix pre (pre ++ s) = some s := by
  rw [stripPrefix, if_pos (by simp), List.drop_left]

theorem stripPrefix_eq_some {pre s rest : Str} (h : stripPrefix pre s = some rest) :
    s = pre ++ rest := by
  rw [stripPrefix] at h
  split_ifs at h with hpre
  obtain ⟨t, rfl⟩ := List.isPrefixOf_iff_prefix.mp hpre
  rw [List.drop_left] at h
  rw [Option.some.inj h]

/-- The text after the first occurrence of `sep`. -/
def afterFirst (sep : Str) : Str → Option Str
  | [] => stripPrefix sep []
  | c :: s => (stripPrefix sep (c :: s)).orElse fun _ => afterFirst sep s

theorem rdropWhile_append_cons {p : Char → Bool} {c : Char} (hc : p c = false) (s t : Str) :
    (s ++ c :: t).rdropWhile p = s ++ c :: t.rdropWhile p := by
  unfold List.rdropWhile
  rw [List.reverse_append, List.reverse_cons, List.append_assoc, List.dropWhile_append]
  split_ifs with ht
  · have hnil : t.reverse.dropWhile p = [] := List.isEmpty_iff.mp ht
    rw [List.singleton_append, List.dropWhile_cons_of_neg (by simp [hc]), hnil]
    simp
  · simp

/-! ### Splitting at a character -/

/-- The text before the first `sep` and the text after it, if `sep` occurs. -/
def splitOnce (sep : Char) (s : Str) : Option (Str × Str) :=
  match s.dropWhile (· != sep) with
  | [] => none
  | _ :: rest => some (s.takeWhile (· != sep), rest)

theorem splitOnce_append (sep : Char) {l : Str} (hl : sep ∉ l) (rest : Str) :
    splitOnce sep (l ++ sep :: rest) = some (l, rest) := by
  have hne : ∀ c ∈ l, (c != sep) = true := fun c hc => bne_iff_ne.mpr fun h => hl (h ▸ hc)
  rw [splitOnce, List.dropWhile_append_of_pos hne, List.takeWhile_append_of_pos hne]
  simp

theorem splitOnce_of_notMem {sep : Char} {s : Str} (h : sep ∉ s) : splitOnce sep s = none := by
  have hne : ∀ c ∈ s, (c != sep) = true := fun c hc => bne_iff_ne.mpr fun h' => h (h' ▸ hc)
  rw [splitOnce, List.dropWhile_eq_nil_iff.mpr hne]

theorem splitOnce_eq_some {sep : Char} {s l rest : Str} (h : splitOnce sep s = some (l, rest)) :
    sep ∉ l ∧ s = l ++ sep :: rest := by
  by_cases hmem : sep ∈ s
  · obtain ⟨pre, post, rfl, hpre⟩ := List.eq_append_cons_of_mem hmem
    rw [splitOnce_append sep hpre] at h
    obtain ⟨rfl, rfl⟩ := Prod.mk.injEq .. ▸ Option.some.inj h
    exact ⟨hpre, rfl⟩
  · rw [splitOnce_of_notMem hmem] at h
    simp at h

/-- The text before the first `sep`, or all of it, and the text after it, if `sep` occurs. -/
def cut (sep : Char) (s : Str) : Str × Option Str :=
  match splitOnce sep s with
  | some (l, rest) => (l, some rest)
  | none => (s, none)

theorem cut_append (sep : Char) {l : Str} (hl : sep ∉ l) (rest : Str) :
    cut sep (l ++ sep :: rest) = (l, some rest) := by
  rw [cut, splitOnce_append sep hl]

theorem cut_of_notMem {sep : Char} {s : Str} (h : sep ∉ s) : cut sep s = (s, none) := by
  rw [cut, splitOnce_of_notMem h]

theorem cut_cases (sep : Char) (s : Str) :
    (sep ∉ s ∧ cut sep s = (s, none)) ∨
      ∃ l rest, sep ∉ l ∧ s = l ++ sep :: rest ∧ cut sep s = (l, some rest) := by
  by_cases h : sep ∈ s
  · obtain ⟨l, rest, rfl, hl⟩ := List.eq_append_cons_of_mem h
    exact .inr ⟨l, rest, hl, rfl, cut_append sep hl rest⟩
  · exact .inl ⟨h, cut_of_notMem h⟩

theorem of_mem_intercalate {c : Char} {sep : Str} {parts : List Str} (h : c ∈ sep.intercalate parts) :
    (∃ part ∈ parts, c ∈ part) ∨ c ∈ sep := by
  induction parts with
  | nil => simp at h
  | cons part parts ih =>
    by_cases hparts : parts = []
    · subst hparts
      rw [List.intercalate_singleton] at h
      exact .inl ⟨part, List.mem_singleton_self part, h⟩
    · rw [List.intercalate_cons_of_ne_nil hparts] at h
      rcases List.mem_append.mp h with h | h
      · rcases List.mem_append.mp h with h | h
        · exact .inl ⟨part, List.mem_cons_self, h⟩
        · exact .inr h
      · rcases ih h with ⟨part', hpart', hc⟩ | hc
        · exact .inl ⟨part', List.mem_cons_of_mem _ hpart', hc⟩
        · exact .inr hc

theorem intercalate_append_cons (sep : Char) {front : List Str} (hfront : front ≠ []) (part : Str)
    (back : List Str) : [sep].intercalate (front ++ part :: back)
      = [sep].intercalate front ++ sep :: [sep].intercalate (part :: back) := by
  induction front with
  | nil => exact absurd rfl hfront
  | cons first front ih =>
    rw [List.cons_append, List.intercalate_cons_of_ne_nil (by simp)]
    by_cases hne : front = []
    · rw [hne, List.intercalate_singleton, List.nil_append, List.append_assoc]
      rfl
    · rw [ih hne, List.intercalate_cons_of_ne_nil hne]
      simp only [List.append_assoc]

theorem splitOn_induction {motive : Str → Prop} (sep : Char) (single : ∀ s, sep ∉ s → motive s)
    (cons : ∀ l rest, sep ∉ l → motive rest → motive (l ++ sep :: rest)) (s : Str) : motive s := by
  generalize hn : s.length = n
  induction n using Nat.strong_induction_on generalizing s with
  | _ n ih =>
    by_cases h : sep ∈ s
    · obtain ⟨l, rest, rfl, hl⟩ := List.eq_append_cons_of_mem h
      have hrest : rest.length < n := by
        rw [← hn, List.length_append, List.length_cons]
        omega
      exact cons l rest hl (ih _ hrest rest rfl)
    · exact single s h

theorem notMem_of_mem_splitOn {sep : Char} {s part : Str} (h : part ∈ s.splitOn sep) :
    sep ∉ part := by
  induction s using splitOn_induction sep with
  | single s hs =>
    rw [List.splitOn_eq_singleton hs, List.mem_singleton] at h
    exact h ▸ hs
  | cons l rest hl ih =>
    rw [List.splitOn_append_cons_self, List.splitOn_eq_singleton hl, List.singleton_append] at h
    rcases List.mem_cons.mp h with rfl | h
    · exact hl
    · exact ih h

theorem splitOn_append_last (sep : Char) (s : Str) : ∃ init last, s.splitOn sep = init ++ [last] ∧
    ∀ t, sep ∉ t → (s ++ t).splitOn sep = init ++ [last ++ t] := by
  induction s using splitOn_induction sep with
  | single s hs =>
    refine ⟨[], s, List.splitOn_eq_singleton hs, fun t ht => List.splitOn_eq_singleton ?_⟩
    intro hmem
    rcases List.mem_append.mp hmem with hmem | hmem
    · exact hs hmem
    · exact ht hmem
  | cons l rest hl ih =>
    obtain ⟨init, last, hsplit, happend⟩ := ih
    refine ⟨l :: init, last, ?_, fun t ht => ?_⟩
    · rw [List.splitOn_append_cons_self, List.splitOn_eq_singleton hl, hsplit]
      rfl
    · rw [List.append_assoc, List.cons_append, List.splitOn_append_cons_self,
        List.splitOn_eq_singleton hl, happend t ht]
      rfl

theorem splitOn_flatMap {sep : Char} {f : Char → Str} (hsep : f sep = [sep])
    (hf : ∀ c, c ≠ sep → sep ∉ f c) (s : Str) :
    (s.flatMap f).splitOn sep = (s.splitOn sep).map (·.flatMap f) := by
  have hnot : ∀ {l : Str}, sep ∉ l → sep ∉ l.flatMap f := by
    intro l hl hmem
    obtain ⟨c, hc, hc'⟩ := List.mem_flatMap.mp hmem
    exact hf c (fun h => hl (h ▸ hc)) hc'
  induction s using splitOn_induction sep with
  | single s hs =>
    rw [List.splitOn_eq_singleton hs, List.splitOn_eq_singleton (hnot hs)]
    rfl
  | cons l rest hl ih =>
    rw [List.flatMap_append, List.flatMap_cons, hsep, List.singleton_append,
      List.splitOn_append_cons_self, List.splitOn_append_cons_self, ih,
      List.splitOn_eq_singleton hl, List.splitOn_eq_singleton (hnot hl)]
    rfl

theorem cut_flatMap {sep : Char} {f : Char → Str} (hsep : f sep = [sep])
    (hf : ∀ c, c ≠ sep → sep ∉ f c) (s : Str) :
    cut sep (s.flatMap f) = ((cut sep s).1.flatMap f, (cut sep s).2.map (·.flatMap f)) := by
  have hnot : ∀ {l : Str}, sep ∉ l → sep ∉ l.flatMap f := by
    intro l hl hmem
    obtain ⟨c, hc, hc'⟩ := List.mem_flatMap.mp hmem
    exact hf c (fun h => hl (h ▸ hc)) hc'
  rcases cut_cases sep s with ⟨h, hcut⟩ | ⟨l, rest, hl, rfl, hcut⟩
  · rw [hcut, cut_of_notMem (hnot h)]
    rfl
  · rw [hcut, List.flatMap_append, List.flatMap_cons, hsep, List.singleton_append,
      cut_append sep (hnot hl)]
    rfl

end DragonflySdk.Foundation
