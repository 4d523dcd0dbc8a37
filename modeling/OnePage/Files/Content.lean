/-! # File contents

A file holds `size` bytes: those written, and zeros after them. Reading a part of a file is
reading it in full and cutting the part out (`read_eq`), but a large hole costs nothing until it
is read. -/

namespace OnePage

structure Content where
  written : List UInt8
  size : Nat
  written_le : written.length ≤ size
  deriving DecidableEq

namespace Content

def bytes (c : Content) : List UInt8 :=
  c.written ++ List.replicate (c.size - c.written.length) 0

def ofBytes (bytes : List UInt8) : Content := ⟨bytes, bytes.length, Nat.le_refl _⟩

def empty : Content := ofBytes []

/-- Cuts off what lies past `size`, or adds zeros up to there. -/
def truncate (c : Content) (size : Nat) : Content :=
  ⟨c.written.take size, size, by simp only [List.length_take]; omega⟩

def append (c : Content) (more : List UInt8) : Content := ofBytes (c.bytes ++ more)

/-- At most `count` bytes from `offset` on. -/
def read (c : Content) (offset count : Nat) : List UInt8 :=
  let got := (c.written.drop offset).take count
  got ++ List.replicate (min count (c.size - offset) - got.length) 0

@[simp] theorem length_bytes (c : Content) : c.bytes.length = c.size := by
  have := c.written_le
  simp only [bytes, List.length_append, List.length_replicate]
  omega

@[simp] theorem bytes_ofBytes (bytes : List UInt8) : (ofBytes bytes).bytes = bytes := by
  simp [Content.bytes, ofBytes]

@[simp] theorem size_ofBytes (bytes : List UInt8) : (ofBytes bytes).size = bytes.length := rfl

@[simp] theorem bytes_append (c : Content) (more : List UInt8) :
    (c.append more).bytes = c.bytes ++ more := by
  simp [append]

theorem read_eq (c : Content) (offset count : Nat) :
    c.read offset count = (c.bytes.drop offset).take count := by
  have := c.written_le
  simp only [read, bytes, List.drop_append, List.take_append, List.length_drop, List.drop_replicate,
    List.take_replicate, List.length_take]
  congr 2
  omega

@[simp] theorem length_read (c : Content) (offset count : Nat) :
    (c.read offset count).length = min count (c.size - offset) := by
  simp [read_eq]

end Content

end OnePage
