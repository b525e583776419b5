import FileProfile.Launch.Words

/-!
The quoted form of a word: the text from which `Words.split` reads that one word back.
-/

namespace FileProfile

namespace Quoted

/-- Units that need no quotation. -/
def isPlain (u : CodeUnit) : Bool :=
  u.isLetter || u.isDigit || (("_@%+=:,./-" : Text).contains u)

/-- The inside of a single quotation. A run of single quotes leaves it for a double quotation;
`inRun` tells whether such a run is under way. -/
def inner (inRun : Bool) : Text → Text
  | [] => if inRun then [Words.doubleQuote, Words.singleQuote] else []
  | u :: rest =>
    if u = Words.singleQuote then
      if inRun then u :: inner true rest
      else Words.singleQuote :: Words.doubleQuote :: u :: inner true rest
    else
      if inRun then Words.doubleQuote :: Words.singleQuote :: u :: inner false rest
      else u :: inner false rest

/-- An empty quotation, which adds nothing to a word that has other parts. -/
def emptyQuotation : Text := [Words.singleQuote, Words.singleQuote]

def dropEmptyStart (t : Text) : Text := if emptyQuotation.isPrefixOf t then t.drop 2 else t

def dropEmptyEnd (t : Text) : Text := (dropEmptyStart t.reverse).reverse

/-- The quoted form of a word. -/
def word (w : Text) : Text :=
  if w = [] then emptyQuotation
  else if w.all isPlain then w
  else dropEmptyEnd (dropEmptyStart (Words.singleQuote :: inner false w ++ [Words.singleQuote]))

example : word "it's" = "'it'\"'\"'s'" := by decide
example : word "'" = "\"'\"" := by decide
example : (Words.split (word "a 'b' $\"c\"")) = .ok ["a 'b' $\"c\""] := by rfl

end Quoted

end FileProfile
