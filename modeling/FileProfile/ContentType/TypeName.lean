import FileProfile.Table

/-!
The names of content types.

Where the rules are asked for the name of a type, what a record inherits comes in place of a text
under some keys. It is a name like any other as long as names are only compared.
-/

namespace FileProfile

/-- The name of a content type. -/
inductive TypeName where
  | text (t : Text)
  /-- What all records inherit under a key, in place of a text. -/
  | inherited (key : InheritedKey)
deriving DecidableEq, Repr

namespace TypeName

instance : Coe Text TypeName := ⟨text⟩

def isText : TypeName → Bool
  | .text _ => true
  | .inherited _ => false

/-- A name as it is shown and looked up. What is inherited is a function, but for the record that
all others inherit from. -/
def spelled : TypeName → Text
  | .text t => t
  | .inherited key =>
    if key.val = prototypeKey then "[object Object]"
    else if key.val = constructorKey then "function Object() \x7b [native code] \x7d"
    else "function " ++ key.val ++ "() \x7b [native code] \x7d"

@[simp] theorem isText_text (t : Text) : (text t).isText = true := rfl

@[simp] theorem isText_inherited (key : InheritedKey) : (inherited key).isText = false := rfl

@[simp] theorem spelled_text (t : Text) : (text t).spelled = t := rfl

end TypeName

/-- The name that a record gives to a key, `default` where it has nothing there. -/
def Table.nameAt (t : Table Text) (key default : Text) : TypeName :=
  match t.property key with
  | .listed name => .text name
  | .inherited value => .inherited value
  | .missing => .text default

end FileProfile
