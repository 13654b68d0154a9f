/-!
White space: the characters with the Unicode property `White_Space`, and text with them removed
from both ends. Main statement: text that holds none stays as it is.
-/

namespace ResourceLibrary.Text

def isBlank (c : Char) : Bool :=
  let n := c.toNat
  (0x9 ≤ n && n ≤ 0xd) || n == 0x20 || n == 0x85 || n == 0xa0 || n == 0x1680 ||
  (0x2000 ≤ n && n ≤ 0x200a) || n == 0x2028 || n == 0x2029 || n == 0x202f || n == 0x205f ||
  n == 0x3000

def trimStart (cs : List Char) : List Char := cs.dropWhile isBlank

def trim (text : String) : String :=
  String.ofList (trimStart (trimStart text.toList).reverse).reverse

theorem trim_of_not_blank {text : String} (clear : ∀ c ∈ text.toList, isBlank c = false) :
    trim text = text := by
  have start : ∀ cs : List Char, (∀ c ∈ cs, isBlank c = false) → trimStart cs = cs := by
    intro cs clear
    cases cs with
    | nil => rfl
    | cons c cs => simp [trimStart, clear c]
  rw [trim, start _ clear, start _ (by simpa using clear)]
  simp

end ResourceLibrary.Text
