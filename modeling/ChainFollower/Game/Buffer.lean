import ChainFollower.Bytes

namespace ChainFollower

/-- Only the front that has been written to is kept byte by byte; behind it every byte is the one that the
buffer was filled with. -/
structure Buffer where
  size : Nat
  /-- What stands at the front. -/
  front : Bytes
  /-- The byte behind the front, up to the end. -/
  fill : UInt8
  front_le : front.length ≤ size
  deriving DecidableEq, Repr

namespace Buffer

def filled (fill : UInt8) (size : Nat) : Buffer := ⟨size, [], fill, Nat.zero_le size⟩

def zeros (size : Nat) : Buffer := filled 0 size

/-- The first `n` bytes, or all if there are fewer. -/
def take (b : Buffer) (n : Nat) : Bytes :=
  b.front.take n ++ List.replicate (min n b.size - b.front.length) b.fill

def toBytes (b : Buffer) : Bytes := b.take b.size

/-- As many of the first `n` bytes as tell whether these are a text: every ASCII byte is a character of
its own, so that one of those behind the front tells as much as all. -/
def sample (b : Buffer) (n : Nat) : Bytes :=
  b.take (if b.fill < 0x80 then min n (b.front.length + 1) else n)

/-- `data` over the front; what does not fit is cut. -/
def write (b : Buffer) (data : Bytes) : Buffer where
  size := b.size
  front := data.take b.size ++ b.front.drop data.length
  fill := b.fill
  front_le := by
    have := b.front_le
    simp only [List.length_append, List.length_take, List.length_drop]
    omega

@[simp] theorem size_write (b : Buffer) (data : Bytes) : (b.write data).size = b.size := rfl

@[simp] theorem size_zeros (n : Nat) : (zeros n).size = n := rfl

@[simp] theorem length_toBytes (b : Buffer) : b.toBytes.length = b.size := by
  have := b.front_le
  simp only [toBytes, take, List.length_append, List.length_take, List.length_replicate]
  omega

/-- What has been written can be taken again. -/
theorem take_write {b : Buffer} {data : Bytes} (h : data.length ≤ b.size) :
    (b.write data).take data.length = data := by
  simp only [take, write, List.take_of_length_le h, List.length_append, List.take_left']
  have : min data.length b.size - (data.length + (b.front.drop data.length).length) = 0 := by omega
  rw [this]
  simp

end Buffer

end ChainFollower
