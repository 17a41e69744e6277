/-!
Texts as lists of characters, measured in bytes of their UTF-8 encoding.

A position is a number of bytes from the start of the text. `dropBytes?` and
`takeBytes?` cut at such a position and answer `none` where there is no
character boundary; `slice?` cuts a stretch out. The two cuts fit together:
`takeBytes?_append` and `dropBytes?_append` say that a text cut after its first
part gives that part and the remainder.
-/

namespace DeclListing.Text

/-- The number of bytes that the characters take in UTF-8. -/
def byteLength : List Char → Nat
  | [] => 0
  | c :: cs => c.utf8Size + byteLength cs

/-- The number of line feeds among the characters. -/
def lineFeeds (cs : List Char) : Nat :=
  cs.count '\n'

/-- What follows the first `n` bytes. There is no answer when the text is
shorter or when byte `n` lies inside a character. -/
def dropBytes? : List Char → Nat → Option (List Char)
  | cs, 0 => some cs
  | [], _ + 1 => none
  | c :: cs, n + 1 =>
    if c.utf8Size ≤ n + 1 then dropBytes? cs (n + 1 - c.utf8Size) else none

/-- The first `n` bytes, under the same conditions as `dropBytes?`. -/
def takeBytes? : List Char → Nat → Option (List Char)
  | _, 0 => some []
  | [], _ + 1 => none
  | c :: cs, n + 1 =>
    if c.utf8Size ≤ n + 1 then (takeBytes? cs (n + 1 - c.utf8Size)).map (c :: ·) else none

/-- The stretch from byte `start` up to byte `stop`. Both must be character
boundaries of the text, in this order. -/
def slice? (cs : List Char) (start stop : Nat) : Option (List Char) :=
  if start ≤ stop then (dropBytes? cs start).bind (takeBytes? · (stop - start)) else none

/-- The characters after the last line feed. -/
def lastLine (cs : List Char) : List Char :=
  (cs.reverse.takeWhile (· ≠ '\n')).reverse

/-- The column of a byte position: the bytes since the last line feed before
it, counted from one. -/
def column? (cs : List Char) (position : Nat) : Option Nat :=
  (takeBytes? cs position).map fun before => byteLength (lastLine before) + 1

@[simp]
theorem byteLength_nil : byteLength [] = 0 := rfl

@[simp]
theorem byteLength_cons (c : Char) (cs : List Char) :
    byteLength (c :: cs) = c.utf8Size + byteLength cs := rfl

@[simp]
theorem byteLength_append (cs ds : List Char) :
    byteLength (cs ++ ds) = byteLength cs + byteLength ds := by
  induction cs with
  | nil => simp
  | cons c cs ih => simp [ih, Nat.add_assoc]

@[simp]
theorem lineFeeds_append (cs ds : List Char) :
    lineFeeds (cs ++ ds) = lineFeeds cs + lineFeeds ds := by
  simp [lineFeeds]

/-- Cutting behind the first part of a text cuts the second. -/
theorem dropBytes?_add (cs ds : List Char) (n : Nat) :
    dropBytes? (cs ++ ds) (byteLength cs + n) = dropBytes? ds n := by
  induction cs with
  | nil => simp
  | cons c cs ih =>
    have hc := c.utf8Size_pos
    obtain ⟨m, hm⟩ : ∃ m, byteLength (c :: cs) + n = m + 1 :=
      ⟨c.utf8Size + byteLength cs + n - 1, by simp; omega⟩
    have hle : c.utf8Size ≤ m + 1 := by simp at hm; omega
    have hrest : m + 1 - c.utf8Size = byteLength cs + n := by simp at hm; omega
    rw [hm, List.cons_append, dropBytes?, if_pos hle, hrest, ih]

/-- Cutting after the first part of a text leaves the second. -/
theorem dropBytes?_append (cs ds : List Char) :
    dropBytes? (cs ++ ds) (byteLength cs) = some ds := by
  have h := dropBytes?_add cs ds 0
  rwa [Nat.add_zero, dropBytes?] at h

/-- Cutting a text up to the end of its first part gives that part. -/
theorem takeBytes?_append (cs ds : List Char) :
    takeBytes? (cs ++ ds) (byteLength cs) = some cs := by
  induction cs with
  | nil => cases ds <;> simp [takeBytes?]
  | cons c cs ih =>
    have hc := c.utf8Size_pos
    obtain ⟨n, hn⟩ : ∃ n, byteLength (c :: cs) = n + 1 :=
      ⟨c.utf8Size + byteLength cs - 1, by simp; omega⟩
    have hle : c.utf8Size ≤ n + 1 := by simp at hn; omega
    have hrest : n + 1 - c.utf8Size = byteLength cs := by simp at hn; omega
    rw [hn, List.cons_append, takeBytes?, if_pos hle, hrest, ih]; rfl

/-- The middle of a text in three parts is the slice between the ends of the
first and the second. -/
theorem slice?_append (cs ds es : List Char) :
    slice? (cs ++ ds ++ es) (byteLength cs) (byteLength cs + byteLength ds) = some ds := by
  simp [slice?, dropBytes?_append, takeBytes?_append]

/-- A stretch of the second part of a text is one of the text, further back. -/
theorem slice?_add (cs ds : List Char) (start stop : Nat) :
    slice? (cs ++ ds) (byteLength cs + start) (byteLength cs + stop) = slice? ds start stop := by
  simp [slice?, dropBytes?_add, Nat.add_sub_add_left]

end DeclListing.Text
