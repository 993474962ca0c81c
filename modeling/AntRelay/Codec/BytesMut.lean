import AntRelay.Base.Outcome
import AntRelay.Base.Bits

namespace AntRelay.Codec
open AntRelay.Base

variable {ε : Type}

def resize (buf : Bytes) (length : Nat) : Bytes :=
  buf.take length ++ List.replicate (length - buf.length) 0

/-- `buf.advance(count)`: panics past the end. -/
def advance (buf : Bytes) (count : Nat) : Outcome ε Bytes :=
  if count ≤ buf.length then .ok (buf.drop count) else .panicked

def sliceFrom (buf : Bytes) (start : Nat) : Outcome ε Bytes :=
  if start ≤ buf.length then .ok (buf.drop start) else .panicked

/-- `buf.split_to(at)`, as what is split off and what stays: panics past the end. -/
def splitTo (buf : Bytes) (count : Nat) : Outcome ε (Bytes × Bytes) :=
  splitAt buf count

/-- `buf.truncate(length)`: a length past the end does nothing. -/
def truncate (buf : Bytes) (length : Nat) : Bytes :=
  buf.take length

theorem advance_of_le {buf : Bytes} {count : Nat} (h : count ≤ buf.length) :
    (advance buf count : Outcome ε Bytes) = .ok (buf.drop count) :=
  if_pos h

theorem sliceFrom_of_le {buf : Bytes} {start : Nat} (h : start ≤ buf.length) :
    (sliceFrom buf start : Outcome ε Bytes) = .ok (buf.drop start) :=
  if_pos h

theorem splitTo_of_le {buf : Bytes} {count : Nat} (h : count ≤ buf.length) :
    (splitTo buf count : Outcome ε _) = .ok (buf.take count, buf.drop count) :=
  splitAt_of_le h

theorem resize_add (buf : Bytes) (count : Nat) :
    resize buf (buf.length + count) = buf ++ List.replicate count 0 := by
  rw [resize, List.take_of_length_le (by omega), Nat.add_sub_cancel_left]

theorem resize_append (front back : Bytes) (count : Nat) :
    resize (front ++ back) (front.length + count) = front ++ resize back count := by
  rw [resize, List.take_length_add_append, List.length_append, resize, List.append_assoc,
    show front.length + count - (front.length + back.length) = count - back.length by omega]

end AntRelay.Codec
