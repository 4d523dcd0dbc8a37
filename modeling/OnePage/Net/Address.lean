/-! # Internet addresses

Numeric addresses are read strictly: the four numbers of an IPv4 address have no leading zero,
and the `::` of an IPv6 address stands for at least one group. -/

namespace OnePage.Net

structure IPv4 where
  a : UInt8
  b : UInt8
  c : UInt8
  d : UInt8
  deriving DecidableEq, Repr

inductive Address where
  | v4 (ip : IPv4)
  /-- Eight groups of sixteen bits. -/
  | v6 (groups : List Nat)
  deriving DecidableEq, Repr

/-- An IPv4 address with a port. -/
structure Endpoint where
  ip : IPv4
  port : Nat
  deriving DecidableEq, Repr

namespace IPv4

/-- The address that stands for all interfaces. -/
def unspecified : IPv4 := ⟨0, 0, 0, 0⟩

def text (ip : IPv4) : String :=
  toString ip.a.toNat ++ "." ++ toString ip.b.toNat ++ "." ++ toString ip.c.toNat ++ "." ++
    toString ip.d.toNat

end IPv4

def Endpoint.text (e : Endpoint) : String := e.ip.text ++ ":" ++ toString e.port

/-! ## Reading -/

def hexValue? (c : Char) : Option Nat :=
  if c.isDigit then some (c.toNat - '0'.toNat)
  else if 'a' ≤ c ∧ c ≤ 'f' then some (c.toNat - 'a'.toNat + 10)
  else if 'A' ≤ c ∧ c ≤ 'F' then some (c.toNat - 'A'.toNat + 10)
  else none

def decimalValue? (c : Char) : Option Nat :=
  if c.isDigit then some (c.toNat - '0'.toNat) else none

/-- A number of one byte: one to three digits, and no zero in front. -/
def readOctet (cs : List Char) : Option (UInt8 × List Char) :=
  let digits := cs.takeWhile Char.isDigit
  let value := (digits.filterMap decimalValue?).foldl (fun n d => n * 10 + d) 0
  if digits = [] ∨ 3 < digits.length ∨ (1 < digits.length ∧ digits.head? = some '0') ∨ 255 < value
  then none
  else some (UInt8.ofNat value, cs.drop digits.length)

/-- Drops the character `c`, which has to be there. -/
def expect (c : Char) : List Char → Option (List Char)
  | d :: rest => if d = c then some rest else none
  | [] => none

def readIPv4 (cs : List Char) : Option (IPv4 × List Char) := do
  let (a, cs) ← readOctet cs
  let (b, cs) ← readOctet (← expect '.' cs)
  let (c, cs) ← readOctet (← expect '.' cs)
  let (d, cs) ← readOctet (← expect '.' cs)
  return (⟨a, b, c, d⟩, cs)

/-- A group: one to four digits of base sixteen. -/
def readGroup (cs : List Char) : Option (Nat × List Char) :=
  let digits := cs.takeWhile fun c => (hexValue? c).isSome
  if digits = [] ∨ 4 < digits.length then none
  else some ((digits.filterMap hexValue?).foldl (fun n d => n * 16 + d) 0, cs.drop digits.length)

/-- Reads up to `n` groups with a colon before each but the `first`. Where two are left to read,
an IPv4 address may stand for them, and ends the reading: the flag tells so. -/
def readGroups (first : Bool) : Nat → List Char → List Nat × Bool × List Char
  | 0, cs => ([], false, cs)
  | n + 1, cs =>
    let start := if first then some cs else expect ':' cs
    match if n = 0 then none else start.bind readIPv4 with
    | some (ip, rest) =>
      ([ip.a.toNat * 256 + ip.b.toNat, ip.c.toNat * 256 + ip.d.toNat], true, rest)
    | none =>
      match start.bind readGroup with
      | none => ([], false, cs)
      | some (group, rest) =>
        let (groups, embedded, rest) := readGroups false n rest
        (group :: groups, embedded, rest)

def readIPv6 (cs : List Char) : Option (List Nat × List Char) :=
  let (head, embedded, rest) := readGroups true 8 cs
  if head.length = 8 then some (head, rest)
  else if embedded then none
  else do
    let rest ← expect ':' (← expect ':' rest)
    let (tail, _, rest) := readGroups true (7 - head.length) rest
    return (head ++ List.replicate (8 - head.length - tail.length) 0 ++ tail, rest)

/-- A reading that uses up the whole text. -/
def whole {α : Type} : Option (α × List Char) → Option α
  | some (a, []) => some a
  | _ => none

def IPv4.ofText? (s : String) : Option IPv4 := whole (readIPv4 s.toList)

/-- The address that a text denotes without being looked up. -/
def Address.ofText? (s : String) : Option Address :=
  match IPv4.ofText? s with
  | some ip => some (.v4 ip)
  | none => (whole (readIPv6 s.toList)).map .v6

def Address.ipv4? : Address → Option IPv4
  | .v4 ip => some ip
  | .v6 _ => none

end OnePage.Net
