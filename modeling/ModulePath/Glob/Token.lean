/-!
# Glob tokens

A glob is cut into tokens from left to right: `**` before `*`, then `?`, a backslash with the
character after it, a run of separators, a run of other characters, and a backslash at the very
end. Every character belongs to exactly one token, so the texts of the tokens put together give the
glob back.
-/

set_option autoImplicit false

namespace ModulePath.Glob

/-- A token of a glob. -/
inductive Token where
  /-- `**` -/
  | anything
  /-- `*` -/
  | segment
  /-- `?` -/
  | one
  /-- A backslash and the character that it makes literal. -/
  | escaped (c : Char)
  /-- One separator and `more` further ones. -/
  | separators (more : Nat)
  /-- A run of ordinary characters. -/
  | literal (first : Char) (rest : List Char)
  /-- A backslash that nothing follows. -/
  | backslash
deriving DecidableEq, Repr

namespace Token

/-- The characters that a token takes up in the glob. -/
def text : Token → List Char
  | anything => ['*', '*']
  | segment => ['*']
  | one => ['?']
  | escaped c => ['\\', c]
  | separators more => List.replicate (more + 1) '/'
  | literal first rest => first :: rest
  | backslash => ['\\']

/-- Whether the token is a run of separators. -/
def isSeparators : Token → Bool
  | separators _ => true
  | _ => false

end Token

/-- Put a separator before tokens: it joins a run of separators that it stands next to. -/
def pushSeparator : List Token → List Token
  | .separators more :: rest => .separators (more + 1) :: rest
  | tokens => .separators 0 :: tokens

/-- Put an ordinary character before tokens: it joins a literal run that it stands next to. -/
def pushLiteral (c : Char) : List Token → List Token
  | .literal first more :: rest => .literal c (first :: more) :: rest
  | tokens => .literal c [] :: tokens

/-- The tokens of a glob. -/
def tokens : List Char → List Token
  | [] => []
  | '*' :: '*' :: rest => .anything :: tokens rest
  | '*' :: rest => .segment :: tokens rest
  | '?' :: rest => .one :: tokens rest
  | ['\\'] => [.backslash]
  | '\\' :: c :: rest => .escaped c :: tokens rest
  | '/' :: rest => pushSeparator (tokens rest)
  | c :: rest => pushLiteral c (tokens rest)

/-- Whether a path is to be read as a glob: it holds a `*` or a `?`. -/
def isGlob (s : String) : Bool :=
  s.toList.contains '*' || s.toList.contains '?'

end ModulePath.Glob
