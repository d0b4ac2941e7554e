import Mathlib.Tactic.Common

/-!
# Errors that wrap errors

An error has a value and the errors it wraps. Whoever asks about it looks at the error itself and
then, depth first, at those it wraps (`ErrorTree.chain`): whether some value is of a kind
(`ErrorTree.has`), and what the first of a kind is (`ErrorTree.first?`).
-/

namespace DragonflySdk.Foundation

/-- An error and the errors it wraps. -/
inductive ErrorTree (α : Type)
  | node (value : α) (wrapped : List (ErrorTree α))

namespace ErrorTree

variable {α β : Type}

def value : ErrorTree α → α
  | .node value _ => value

def wrapped : ErrorTree α → List (ErrorTree α)
  | .node _ wrapped => wrapped

mutual

/-- The error and all it wraps, in the order in which they are looked at. -/
def chain : ErrorTree α → List (ErrorTree α)
  | .node value wrapped => .node value wrapped :: chains wrapped

def chains : List (ErrorTree α) → List (ErrorTree α)
  | [] => []
  | e :: es => e.chain ++ chains es

end

/-- Some value in the chain is as `p` says. -/
def has (p : α → Bool) (e : ErrorTree α) : Bool := e.chain.any fun e => p e.value

/-- The first in the chain that `f` is defined on. -/
def first? (f : ErrorTree α → Option β) (e : ErrorTree α) : Option β := e.chain.findSome? f

theorem first?_wrap (f : ErrorTree α → Option β) (value : α) (e : ErrorTree α) :
    (node value [e]).first? f = (f (node value [e])).or (e.first? f) := by
  rw [first?, chain, chains, chains, List.append_nil, List.findSome?_cons]
  cases f (node value [e]) <;> rfl

section

variable [SizeOf α]

mutual

theorem sizeOf_le_of_mem_chain {e e' : ErrorTree α} (h : e' ∈ e.chain) : sizeOf e' ≤ sizeOf e := by
  cases e with
  | node value wrapped =>
    rw [chain, List.mem_cons] at h
    rcases h with rfl | h
    · exact Nat.le_refl _
    · have hle := sizeOf_le_of_mem_chains h
      rw [node.sizeOf_spec]
      omega
termination_by sizeOf e

theorem sizeOf_le_of_mem_chains {es : List (ErrorTree α)} {e' : ErrorTree α}
    (h : e' ∈ chains es) : sizeOf e' ≤ sizeOf es := by
  cases es with
  | nil => cases h
  | cons e es =>
    rw [List.cons.sizeOf_spec]
    rw [chains, List.mem_append] at h
    rcases h with h | h
    · have hle := sizeOf_le_of_mem_chain h
      omega
    · have hle := sizeOf_le_of_mem_chains h
      omega
termination_by sizeOf es

end

theorem sizeOf_lt_of_mem_chain {e e' : ErrorTree α} {value : α} (h : node value [e'] ∈ e.chain) :
    sizeOf e' < sizeOf e := by
  have hle := sizeOf_le_of_mem_chain h
  rw [node.sizeOf_spec, List.cons.sizeOf_spec] at hle
  omega

end

end ErrorTree

end DragonflySdk.Foundation
