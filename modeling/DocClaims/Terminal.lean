/-!
# Terminal text

Texts in colour, where colour is wanted.
-/

namespace DocClaims

inductive Tint
  | red
  | green
  | yellow
  | cyan
  | bold
  | dimmed
  | boldGreen
  | boldCyan
  | plain
  deriving DecidableEq, Repr

def Tint.code : Tint → String
  | red => "31"
  | green => "32"
  | yellow => "33"
  | cyan => "36"
  | bold => "1"
  | dimmed => "2"
  | boldGreen => "1;32"
  | boldCyan => "1;36"
  | plain => ""

def Tint.paint (tint : Tint) (color : Bool) (s : String) : String :=
  if color && tint != .plain then "\x1b[" ++ tint.code ++ "m" ++ s ++ "\x1b[0m" else s

def padded (width : Nat) (s : String) : String :=
  s ++ String.ofList (List.replicate (width - s.length) ' ')

end DocClaims
