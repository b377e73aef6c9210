import AccessTransformer.Json.Number
import AccessTransformer.Json.Quoted

/-!
# Tokens of JSON texts

A JSON text is cut into tokens: the six marks, and the scalars.  A text that cannot be cut any
further ends in one more token, which says with which character it goes wrong and how.  That token
is not yet a failure.  Whether it decides depends on the reader, which may have stopped before it,
and which may not even want a scalar that starts with this character.

* `Token.ofText`: the tokens of a text.
-/

namespace AccessTransformer.Json

/-- A value without parts. -/
inductive Scalar where
  | null
  | bool (b : Bool)
  | number (n : Number)
  | string (s : String)
  deriving DecidableEq, Repr

/-- The smallest parts of a text. -/
inductive Token where
  | openBracket
  | closeBracket
  | openBrace
  | closeBrace
  | comma
  | colon
  | scalar (s : Scalar)
  /-- A scalar that goes wrong, or a character that starts no token. -/
  | broken (lead : Char) (fault : Fault)
  deriving DecidableEq, Repr

namespace Token

/-- Whether a character may stand between tokens. -/
def isBlank (c : Char) : Bool := c = ' ' ∨ c = '\t' ∨ c = '\n' ∨ c = '\r'

/-- The token that a character is by itself. -/
def mark? (c : Char) : Option Token :=
  if c = '[' then some .openBracket
  else if c = ']' then some .closeBracket
  else if c = '\x7b' then some .openBrace
  else if c = '\x7d' then some .closeBrace
  else if c = ',' then some .comma
  else if c = ':' then some .colon
  else none

/-- The text behind a word that has to start it. -/
def word : List Char → List Char → Except Fault (List Char)
  | [], text => .ok text
  | _ :: _, [] => .error .truncated
  | expected :: word', c :: text => if c = expected then word word' text else .error .malformed

/-- The scalar that starts with the given character, and the text behind it. -/
def scalar? (lead : Char) (text : List Char) : Except Fault (Scalar × List Char) :=
  if lead = '"' then
    (Quoted.scan text).map fun part => (.string (String.ofList part.1), part.2)
  else if lead = 'n' then (word ['u', 'l', 'l'] text).map fun rest => (.null, rest)
  else if lead = 't' then (word ['r', 'u', 'e'] text).map fun rest => (.bool true, rest)
  else if lead = 'f' then (word ['a', 'l', 's', 'e'] text).map fun rest => (.bool false, rest)
  else if lead = '-' ∨ lead.isDigit then
    (Number.scan (lead :: text)).map fun part => (.number part.1, part.2)
  else .error .malformed

/-! ## Cutting goes forward -/

theorem word_length {expected text rest : List Char} (h : word expected text = .ok rest) :
    rest.length ≤ text.length := by
  fun_induction word expected text with
  | case1 text =>
    simp only [Except.ok.injEq] at h
    exact Nat.le_of_eq (congrArg List.length h.symm)
  | case2 => cases h
  | case3 expected expecteds text ih =>
    have := ih h
    simp only [List.length_cons]
    omega
  | case4 => cases h

theorem scalar?_length {lead : Char} {text rest : List Char} {s : Scalar}
    (h : scalar? lead text = .ok (s, rest)) : rest.length ≤ text.length := by
  unfold scalar? at h
  split at h
  · obtain ⟨part, hpart, rfl⟩ := exists_of_map_ok h
    exact Nat.le_of_lt (Quoted.scan_length (hpart.trans rfl))
  · split at h
    · obtain ⟨part, hpart, rfl⟩ := exists_of_map_ok h
      exact word_length hpart
    · split at h
      · obtain ⟨part, hpart, rfl⟩ := exists_of_map_ok h
        exact word_length hpart
      · split at h
        · obtain ⟨part, hpart, rfl⟩ := exists_of_map_ok h
          exact word_length hpart
        · split at h
          · obtain ⟨part, hpart, rfl⟩ := exists_of_map_ok h
            exact Nat.le_of_lt_succ (Number.scan_length (hpart.trans rfl))
          · cases h

/-- The tokens of a text. -/
def ofText : List Char → List Token
  | [] => []
  | c :: text =>
    if isBlank c then ofText text
    else
      match mark? c with
      | some mark => mark :: ofText text
      | none =>
        match h : scalar? c text with
        | .error fault => [.broken c fault]
        | .ok (s, rest) =>
          have := scalar?_length h
          .scalar s :: ofText rest
termination_by text => text.length
decreasing_by
  · simp
  · simp
  · simp only [List.length_cons]
    omega

end Token

end AccessTransformer.Json
