/-!
Contract: cancellation tokens, each a handle on a flag that can be set once and never cleared.

Owns: which flag a token stands for, setting it, and the making of further tokens.

Does not own: who looks at a token, and when (`Correlator.Client.Operation`).
-/

set_option autoImplicit false

namespace Correlator

/-- Tokens are numbered in the order in which they were made. -/
abbrev Token := Nat

/-- Flags and the tokens on them: the element of `tokens` at a token is the index of its flag. -/
structure TokenShelf where
  flags : List Bool
  tokens : List Nat
deriving DecidableEq, Repr

namespace TokenShelf

def empty : TokenShelf := ⟨[], []⟩

/-- One token, number 0, on a flag that is not set. -/
def initial : TokenShelf := ⟨[false], [0]⟩

def isCancelled (shelf : TokenShelf) (token : Token) : Bool :=
  (shelf.tokens[token]?.bind (shelf.flags[·]?)).getD false

/-- Sets the flag of a token, and tells whether it was clear before. -/
def cancel (shelf : TokenShelf) (token : Token) : Bool × TokenShelf :=
  match shelf.tokens[token]? with
  | some flag =>
    (shelf.flags[flag]? == some false, { shelf with flags := shelf.flags.set flag true })
  | none => (false, shelf)

/-- A further token on the flag of `token`, and its number. -/
def share? (shelf : TokenShelf) (token : Token) : Option (Token × TokenShelf) :=
  shelf.tokens[token]?.map fun flag =>
    (shelf.tokens.length, { shelf with tokens := shelf.tokens ++ [flag] })

/-- A token on a flag of its own, and its number. -/
def fresh (shelf : TokenShelf) : Token × TokenShelf :=
  (shelf.tokens.length,
    { flags := shelf.flags ++ [false], tokens := shelf.tokens ++ [shelf.flags.length] })

/-- What every token shows, in the order of the tokens. -/
def shown (shelf : TokenShelf) : List Bool :=
  (List.range shelf.tokens.length).map shelf.isCancelled

end TokenShelf

end Correlator
