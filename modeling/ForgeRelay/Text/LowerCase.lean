/-!
# Lower case, as far as ASCII is concerned

Identifiers are written in ASCII, and every character outside it ends up as a dot, whatever its
case.  So `lowerCase` maps the characters whose lower case form holds an ASCII letter: the capital
letters A to Z, the dotted capital I, whose form is an i with a dot above, and the Kelvin sign.
It keeps all others.
-/

namespace ForgeRelay

def Char.lowerForms (c : Char) : List Char :=
  if c = '\u0130' then ['i', '\u0307']
  else if c = '\u212a' then ['k']
  else [c.toLower]

def lowerCase (cs : List Char) : List Char := cs.flatMap Char.lowerForms

theorem lowerCase_cons (c : Char) (cs : List Char) :
    lowerCase (c :: cs) = Char.lowerForms c ++ lowerCase cs := rfl

theorem Char.lowerForms_ne_nil (c : Char) : Char.lowerForms c ≠ [] := by
  unfold Char.lowerForms
  split
  · simp
  · split <;> simp

theorem lowerCase_eq_nil {cs : List Char} : lowerCase cs = [] ↔ cs = [] := by
  cases cs with
  | nil => simp [lowerCase]
  | cons c cs => simp [lowerCase_cons, Char.lowerForms_ne_nil]

end ForgeRelay
