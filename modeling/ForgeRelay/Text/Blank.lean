/-!
# Blank characters

A character is blank if Unicode gives it the White_Space property.  `trim` cuts the blanks at
both ends of a text.
-/

namespace ForgeRelay

def isBlank (c : Char) : Bool :=
  let n := c.toNat
  (0x09 ≤ n && n ≤ 0x0d) || n == 0x20 || n == 0x85 || n == 0xa0 || n == 0x1680 ||
  (0x2000 ≤ n && n ≤ 0x200a) || n == 0x2028 || n == 0x2029 || n == 0x202f || n == 0x205f ||
  n == 0x3000

def trimStart (cs : List Char) : List Char := cs.dropWhile isBlank
def trimEnd (cs : List Char) : List Char := (cs.reverse.dropWhile isBlank).reverse

/-- a text without the blanks at its ends, as characters -/
def trimmed (s : String) : List Char := trimEnd (trimStart s.toList)

def trim (s : String) : String := String.ofList (trimmed s)

theorem trimStart_cons_of_not_blank {c : Char} (h : isBlank c = false) (cs : List Char) :
    trimStart (c :: cs) = c :: cs := by
  simp [trimStart, h]

theorem trimStart_of_head? {cs : List Char} (h : ∀ c ∈ cs.head?, isBlank c = false) :
    trimStart cs = cs := by
  cases cs with
  | nil => rfl
  | cons c cs => exact trimStart_cons_of_not_blank (h c rfl) cs

/-- a text without a blank at either end is kept -/
theorem trimmed_ofList {cs : List Char} (hfirst : ∀ c ∈ cs.head?, isBlank c = false)
    (hlast : ∀ c ∈ cs.getLast?, isBlank c = false) : trimmed (String.ofList cs) = cs := by
  have hend : trimStart cs.reverse = cs.reverse := by
    apply trimStart_of_head?
    rw [List.head?_reverse]
    exact hlast
  rw [trimmed, String.toList_ofList, trimStart_of_head? hfirst]
  show (trimStart cs.reverse).reverse = cs
  rw [hend, List.reverse_reverse]

end ForgeRelay
