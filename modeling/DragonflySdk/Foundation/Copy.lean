import Mathlib.Data.List.Basic
import Mathlib.Tactic.Common

/-!
# Copying chunks

A source is read into a buffer that the sink has room for, and the sink is written what was read,
until a read says that it was the last one or the sink does not take a chunk. Whatever room there
is, the sink has then taken the chunks of the source in order, all of them unless it refused one
(`copied_of_copy`). Copying ends if the source does (`exists_copy`), and it does not tell apart two
sources that are read alike until they end (`copy_alike`).
-/

namespace DragonflySdk.Foundation

/-- What copying ends with: the last read, or a chunk that is not taken. -/
inductive CopyEnd (ε δ : Type*)
  | read (err : ε)
  | write (err : δ)

section
variable {S W β ε δ : Type*} (read : S → Nat → S × List β × Option ε) (room : W → Nat)
  (write : W → List β → W × Option δ)

/-- Copies by at most `fuel` reads. -/
def copy (fuel : Nat) (s : S) (w : W) : Option ((S × W) × CopyEnd ε δ) :=
  match fuel with
  | 0 => none
  | fuel + 1 =>
    match read s (room w) with
    | (s, chunk, last) =>
      match write w chunk with
      | (w, some err) => some ((s, w), .write err)
      | (w, none) =>
        match last with
        | some err => some ((s, w), .read err)
        | none => copy fuel s w

/-- Some reads of the source: their chunks, what the last of them ends with, and the source after
them. -/
inductive Reads : S → List (List β) → Option ε → S → Prop
  | nil {s : S} : Reads s [] none s
  | read {s s₁ s' : S} {len : Nat} {chunk : List β} {chunks : List (List β)} {last : Option ε}
      (hread : read s len = (s₁, chunk, none)) (hrest : Reads s₁ chunks last s') :
      Reads s (chunk :: chunks) last s'
  | last {s s' : S} {len : Nat} {chunk : List β} {err : ε}
      (hread : read s len = (s', chunk, some err)) : Reads s [chunk] (some err) s'

/-- The sink after it has taken all the chunks. -/
def writeAll (w : W) (chunks : List (List β)) : Option W :=
  match chunks with
  | [] => some w
  | chunk :: chunks =>
    match write w chunk with
    | (w, none) => writeAll w chunks
    | (_, some _) => none

/-- A source that ends however it is read, as long as there is room. -/
inductive Ends : S → Prop
  | intro {s : S} (h : ∀ len, 0 < len → (read s len).2.2 = none → Ends (read s len).1) : Ends s

/-- What copying from `s` to `w` comes to. -/
inductive Copied (s : S) (w : W) : (S × W) × CopyEnd ε δ → Prop
  /-- The sink has taken all of the source. -/
  | whole {s' : S} {w' : W} {chunks : List (List β)} {err : ε}
      (hreads : Reads read s chunks (some err) s') (hwrites : writeAll write w chunks = some w') :
      Copied s w ((s', w'), .read err)
  /-- The sink has taken a front of it, but not the next chunk. -/
  | refused {s' : S} {w₁ w' : W} {chunks : List (List β)} {chunk : List β} {last : Option ε} {err : δ}
      (hreads : Reads read s (chunks ++ [chunk]) last s') (hwrites : writeAll write w chunks = some w₁)
      (hwrite : write w₁ chunk = (w', some err)) : Copied s w ((s', w'), .write err)

variable {read room write}

theorem writeAll_cons {w w₁ : W} {chunk : List β} (h : write w chunk = (w₁, none))
    (chunks : List (List β)) :
    writeAll write w (chunk :: chunks) = writeAll write w₁ chunks := by
  rw [writeAll, h]

theorem Copied.cons {s s₁ : S} {w w₁ : W} {len : Nat} {chunk : List β}
    {result : (S × W) × CopyEnd ε δ} (hread : read s len = (s₁, chunk, none))
    (hwrite : write w chunk = (w₁, none)) (h : Copied read write s₁ w₁ result) :
    Copied read write s w result := by
  cases h with
  | whole hreads hwrites => exact .whole (.read hread hreads) ((writeAll_cons hwrite _).trans hwrites)
  | refused hreads hwrites hrefused =>
    exact .refused (.read hread hreads) ((writeAll_cons hwrite _).trans hwrites) hrefused

/-- **The sink takes what the source delivers**, in order. -/
theorem copied_of_copy {fuel : Nat} {s : S} {w : W} {result : (S × W) × CopyEnd ε δ}
    (h : copy read room write fuel s w = some result) : Copied read write s w result := by
  induction fuel generalizing s w with
  | zero => cases h
  | succ fuel ih =>
    rw [copy] at h
    rcases hread : read s (room w) with ⟨s₁, chunk, last⟩
    rcases hwrite : write w chunk with ⟨w₁, _ | err⟩
    · cases last with
      | none =>
        simp only [hread, hwrite] at h
        exact .cons hread hwrite (ih h)
      | some err =>
        simp only [hread, hwrite] at h
        obtain rfl := Option.some.inj h
        exact .whole (.last hread) ((writeAll_cons hwrite _).trans rfl)
    · simp only [hread, hwrite] at h
      obtain rfl := Option.some.inj h
      have hreads : Reads read s ([] ++ [chunk]) last s₁ := by
        cases last with
        | none => exact .read hread .nil
        | some err => exact .last hread
      exact .refused hreads rfl hwrite

/-- **Copying from a source that ends comes to an end.** -/
theorem exists_copy (hroom : ∀ w, 0 < room w) {s : S} (h : Ends read s) (w : W) :
    ∃ fuel result, copy read room write fuel s w = some result := by
  induction h generalizing w with
  | @intro s _ ih =>
    rcases hread : read s (room w) with ⟨s₁, chunk, last⟩
    rcases hwrite : write w chunk with ⟨w₁, _ | err⟩
    · cases last with
      | none =>
        obtain ⟨fuel, result, hrest⟩ := ih (room w) (hroom w) (by rw [hread]) w₁
        rw [hread] at hrest
        exact ⟨fuel + 1, result, by simp only [copy, hread, hwrite, hrest]⟩
      | some err => exact ⟨1, ((s₁, w₁), .read err), by simp only [copy, hread, hwrite]⟩
    · exact ⟨1, ((s₁, w₁), .write err), by simp only [copy, hread, hwrite]⟩

end

/-! ### Sources that are read alike -/

section
variable {S T W β ε δ : Type*}

/-- Sources that are read alike as long as they are `Open`, and are `Left` alike by each read. -/
structure Alike (read : S → Nat → S × List β × Option ε) (read' : T → Nat → T × List β × Option ε)
    (Open Left : S → T → Prop) : Prop where
  same : ∀ {s t}, Open s t → ∀ len, (read s len).2 = (read' t len).2
  stays : ∀ {s t}, Open s t → ∀ len, (read s len).2.2 = none → Open (read s len).1 (read' t len).1
  leaves : ∀ {s t}, Open s t → ∀ len, Left (read s len).1 (read' t len).1

/-- The sink and the end are the same, and the sources are left alike. -/
def SameCopy (Left : S → T → Prop) (result : (S × W) × CopyEnd ε δ)
    (result' : (T × W) × CopyEnd ε δ) : Prop :=
  Left result.1.1 result'.1.1 ∧ result.1.2 = result'.1.2 ∧ result.2 = result'.2

variable {read : S → Nat → S × List β × Option ε} {read' : T → Nat → T × List β × Option ε}
  {Open Left : S → T → Prop} {room : W → Nat} {write : W → List β → W × Option δ}

/-- **Copying does not tell apart sources that are read alike.** -/
theorem copy_alike (h : Alike read read' Open Left) {s : S} {t : T} (hopen : Open s t) (w : W)
    (fuel : Nat) :
    Option.Rel (SameCopy Left) (copy read room write fuel s w)
      (copy read' room write fuel t w) := by
  induction fuel generalizing s t w with
  | zero => exact .none
  | succ fuel ih =>
    have hsame := h.same hopen (room w)
    have hstays := h.stays hopen (room w)
    have hleft := h.leaves hopen (room w)
    rcases hread : read s (room w) with ⟨s₁, chunk, last⟩
    rcases hread' : read' t (room w) with ⟨t₁, chunk', last'⟩
    rw [hread, hread'] at hsame hstays hleft
    obtain ⟨rfl, rfl⟩ := Prod.mk.inj hsame
    rcases hwrite : write w chunk with ⟨w₁, _ | err⟩
    · cases last with
      | none =>
        simp only [copy, hread, hread', hwrite]
        exact ih (hstays rfl) w₁
      | some err =>
        simp only [copy, hread, hread', hwrite]
        exact .some ⟨hleft, rfl, rfl⟩
    · simp only [copy, hread, hread', hwrite]
      exact .some ⟨hleft, rfl, rfl⟩

end

end DragonflySdk.Foundation
