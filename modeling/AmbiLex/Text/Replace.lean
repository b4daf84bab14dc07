/-!
# Replacing within a text

Replacing goes from left to right and never looks at what it has already written: after an
occurrence it goes on behind it, so occurrences do not overlap. An empty search text occurs before
every character and at the end.

`normalizeNewlines` is the reading of text files in which the three customary line endings all
become a line feed.
-/

namespace AmbiLex.Text

/-- Replace the occurrences of `old`, of which the next `skip` characters of the text belong to
one already replaced. -/
def replaceFrom (old new : List Char) : Nat → List Char → List Char
  | _, [] => []
  | skip + 1, _ :: rest => replaceFrom old new skip rest
  | 0, c :: rest =>
    if old.isPrefixOf (c :: rest) then new ++ replaceFrom old new (old.length - 1) rest
    else c :: replaceFrom old new 0 rest

/-- **Replace every occurrence of `old` by `new`**, from left to right and without overlaps. -/
def replaceAll (old new text : List Char) : List Char :=
  if old.isEmpty then text.foldr (fun c done => new ++ c :: done) new
  else replaceFrom old new 0 text

/-- Whether `part` occurs in the text. -/
def occursIn (part : List Char) : List Char → Bool
  | [] => part.isEmpty
  | c :: rest => part.isPrefixOf (c :: rest) || occursIn part rest

/-- **Line endings as a text file is read**: a carriage return followed by a line feed, and a
carriage return alone, become a line feed. -/
def normalizeNewlines (text : List Char) : List Char :=
  replaceAll ['\r'] ['\n'] (replaceAll ['\r', '\n'] ['\n'] text)

end AmbiLex.Text
