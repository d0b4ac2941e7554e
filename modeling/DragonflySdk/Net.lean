import DragonflySdk.Foundation.Text

/-!
# Addresses

`net.rs`, and of `std::net` what the client uses of it: reading an IP address and writing it back.
The readers follow the parser of the standard library, which never looks back once an alternative
has succeeded; what is left over makes the address invalid.
-/

namespace DragonflySdk

open Foundation

structure Ipv4Addr where
  octets : List (Fin 256)
  length_eq : octets.length = 4
deriving DecidableEq, Repr

structure Ipv6Addr where
  segments : List (Fin 65536)
  length_eq : segments.length = 8
deriving DecidableEq, Repr

inductive IpAddr
  | v4 (addr : Ipv4Addr)
  | v6 (addr : Ipv6Addr)
deriving DecidableEq, Repr

/-- The two segments of an embedded IPv4 address. -/
def Ipv4Addr.toSegments (addr : Ipv4Addr) : Fin 65536 × Fin 65536 :=
  match addr with
  | ⟨[a, b, c, d], _⟩ => (⟨a * 256 + b, by omega⟩, ⟨c * 256 + d, by omega⟩)

/-! ### Reading -/

namespace IpAddr

/-- Reads the front of a text and hands back the rest. -/
abbrev Reader (α : Type) := Str → Option (α × Str)

/-- `char::to_digit`, up to radix 16. -/
def toDigit (radix : Nat) (c : Char) : Option Nat :=
  let digit :=
    if '0' ≤ c ∧ c ≤ '9' then c.toNat - 48
    else if 'a' ≤ c ∧ c ≤ 'f' then c.toNat - 87
    else if 'A' ≤ c ∧ c ≤ 'F' then c.toNat - 55
    else radix
  if digit < radix then some digit else none

/-- `read_number`, for a type of `size` numbers. -/
def readNumber (size radix maxDigits : Nat) (allowZeroPrefix : Bool) : Reader (Fin size) := fun s =>
  let text := s.takeWhile fun c => (toDigit radix c).isSome
  let number := (text.filterMap (toDigit radix)).foldl (fun n digit => n * radix + digit) 0
  if text = [] ∨ maxDigits < text.length then none
  else if ¬ allowZeroPrefix ∧ text.head? = some '0' ∧ 1 < text.length then none
  else if h : number < size then some (⟨number, h⟩, s.drop text.length)
  else none

/-- `read_separator`: the first item has none before it. -/
def readSeparator {α : Type} (sep : Char) (index : Nat) (inner : Reader α) : Reader α
  | [] => if index = 0 then inner [] else none
  | c :: s => if index = 0 then inner (c :: s) else if c = sep then inner s else none

/-- `read_ipv4_addr`: four decimal numbers without leading zeros. -/
def readIpv4Addr : Reader Ipv4Addr := fun s => do
  let octet index := readSeparator '.' index (readNumber 256 10 3 false)
  let (a, s) ← octet 0 s
  let (b, s) ← octet 1 s
  let (c, s) ← octet 2 s
  let (d, s) ← octet 3 s
  return (⟨[a, b, c, d], rfl⟩, s)

/-- `read_groups`: up to `count` groups, the last two of them maybe an IPv4 address. -/
def readGroups (index : Nat) : (count : Nat) → Str → List (Fin 65536) × Bool × Str
  | 0, s => ([], false, s)
  | count + 1, s =>
    match if 0 < count then readSeparator ':' index readIpv4Addr s else none with
    | some (addr, s) => ([addr.toSegments.1, addr.toSegments.2], true, s)
    | none =>
      match readSeparator ':' index (readNumber 65536 16 4 true) s with
      | none => ([], false, s)
      | some (group, s) =>
        let (groups, hasIpv4, s) := readGroups (index + 1) count s
        (group :: groups, hasIpv4, s)

theorem length_readGroups_le (index count : Nat) (s : Str) :
    (readGroups index count s).1.length ≤ count := by
  induction count generalizing index s with
  | zero => simp [readGroups]
  | succ count ih =>
    unfold readGroups
    split
    · rename_i addr rest h
      have hcount : 0 < count := by
        by_contra hzero
        rw [if_neg hzero] at h
        simp at h
      show 2 ≤ count + 1
      omega
    · split
      · exact Nat.zero_le _
      · exact Nat.succ_le_succ (ih _ _)

/-- `read_ipv6_addr`: eight groups, or fewer around a `::` that stands for zeros. -/
def readIpv6Addr : Reader Ipv6Addr := fun s =>
  match hhead : readGroups 0 8 s with
  | (head, hasIpv4, s') =>
    if h : head.length = 8 then some (⟨head, h⟩, s')
    else if hasIpv4 then none
    else
      match s' with
      | ':' :: ':' :: s'' =>
        match htail : readGroups 0 (8 - (head.length + 1)) s'' with
        | (tail, _, rest) =>
          let zeros := List.replicate (8 - head.length - tail.length) 0
          some (⟨head ++ zeros ++ tail, by
            have hle := length_readGroups_le 0 8 s
            have htle := length_readGroups_le 0 (8 - (head.length + 1)) s''
            rw [hhead] at hle
            rw [htail] at htle
            simp only [List.length_append, List.length_replicate, zeros] at hle htle ⊢
            omega⟩, rest)
      | _ => none

/-- `read_ip_addr` -/
def readIpAddr : Reader IpAddr := fun s =>
  match readIpv4Addr s with
  | some (addr, s) => some (.v4 addr, s)
  | none => (readIpv6Addr s).map fun (addr, s) => (.v6 addr, s)

/-- `IpAddr::from_str` -/
def parse (s : Str) : Option IpAddr :=
  match readIpAddr s with
  | some (addr, []) => some addr
  | _ => none

/-- The text of an `AddrParseError`. -/
def parseError : Str := "invalid IP address syntax".toList

end IpAddr

/-! ### Writing -/

def Ipv4Addr.toStr (addr : Ipv4Addr) : Str :=
  ".".toList.intercalate (addr.octets.map fun octet => octet.val.repr.toList)

/-- `to_ipv4_mapped`: the address in `::ffff:a.b.c.d`. -/
def Ipv6Addr.toIpv4Mapped (addr : Ipv6Addr) : Option Ipv4Addr :=
  match addr.segments with
  | [0, 0, 0, 0, 0, 0xffff, ab, cd] =>
    some ⟨[⟨ab / 256, by omega⟩, ⟨ab % 256, by omega⟩, ⟨cd / 256, by omega⟩,
      ⟨cd % 256, by omega⟩], rfl⟩
  | _ => none

/-- A run of zero segments. -/
structure Span where
  start : Nat
  len : Nat

/-- The first of the longest runs of zero segments. -/
def longestZeros (segments : List (Fin 65536)) : Span :=
  let step := fun ((longest, current) : Span × Span) ((segment, i) : Fin 65536 × Nat) =>
    if segment = 0 then
      let current := ⟨if current.len = 0 then i else current.start, current.len + 1⟩
      (if longest.len < current.len then current else longest, current)
    else (longest, ⟨0, 0⟩)
  (segments.zipIdx.foldl step (⟨0, 0⟩, ⟨0, 0⟩)).1

/-- `fmt_subslice` -/
def fmtSubslice (segments : List (Fin 65536)) : Str :=
  ":".toList.intercalate (segments.map fun segment => Nat.toDigits 16 segment)

def Ipv6Addr.toStr (addr : Ipv6Addr) : Str :=
  match addr.toIpv4Mapped with
  | some ipv4 => "::ffff:".toList ++ ipv4.toStr
  | none =>
    let zeros := longestZeros addr.segments
    if 1 < zeros.len then
      fmtSubslice (addr.segments.take zeros.start) ++ "::".toList ++
        fmtSubslice (addr.segments.drop (zeros.start + zeros.len))
    else fmtSubslice addr.segments

/-! ### Socket addresses -/

/-- `port as u16` of an `i32`. -/
def portOf (port : Int) : Nat := (port % 65536).toNat

/-- Formats an IP address and port into a socket address string. -/
def formatSocketAddr (ip : IpAddr) (port : Nat) : Str :=
  match ip with
  | .v4 addr => addr.toStr ++ ":".toList ++ port.repr.toList
  | .v6 addr => "[".toList ++ addr.toStr ++ "]:".toList ++ port.repr.toList

/-- Formats a complete URL with scheme, IP address, and port. -/
def formatUrl (scheme : Str) (ip : IpAddr) (port : Nat) : Str :=
  scheme ++ "://".toList ++ formatSocketAddr ip port

example : (IpAddr.parse "::ffff:10.0.0.1".toList).map (formatUrl "http".toList · 80) =
    some "http://[::ffff:10.0.0.1]:80".toList := by decide +kernel

end DragonflySdk
