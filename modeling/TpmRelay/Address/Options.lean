set_option autoImplicit false

namespace TpmRelay

structure Setting where
  key : String
  value : String
  deriving DecidableEq, Repr

namespace Options

def pieces (separator : Char) : List Char → List (List Char)
  | [] => [[]]
  | c :: rest =>
    if c = separator then [] :: pieces separator rest
    else match pieces separator rest with
      | [] => [[c]]
      | piece :: more => (c :: piece) :: more

def setting (piece : List Char) : Setting where
  key := String.ofList (piece.takeWhile (· ≠ '='))
  value := String.ofList ((piece.dropWhile (· ≠ '=')).drop 1)

def settings (options : List Char) : List Setting :=
  ((pieces ',' options).filter (· ≠ [])).map setting

end Options

end TpmRelay
