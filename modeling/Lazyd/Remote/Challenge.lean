import Lazyd.Base
import Mathlib.Data.List.TakeWhile

/-!
# Bearer challenges

What a registry asks for in the `WWW-Authenticate` header of a response with status 401, as the
daemon reads it.

## Main definitions

* `Oci.BearerChallenge`, `Oci.BearerChallenge.cacheKey`.
* `Oci.parseBearerChallenge`, `Oci.bearerChallengeFromHeaders`.

Source: `src/remote/oci.rs`, lines 55–71 and 333–387.
-/

namespace Lazyd

namespace Oci

structure BearerChallenge where
  realm : String
  service : Option String
  scope : Option String
  deriving DecidableEq, Repr

/-- `BearerChallenge::cache_key` -/
def BearerChallenge.cacheKey (challenge : BearerChallenge) : String :=
  challenge.realm ++ "|" ++ challenge.service.getD "" ++ "|" ++ challenge.scope.getD ""

/-- `char::is_whitespace` -/
def isWhitespace (c : Char) : Bool :=
  (0x9 ≤ c.toNat && c.toNat ≤ 0xd) || c.toNat ∈ [0x20, 0x85, 0xa0, 0x1680] ||
    (0x2000 ≤ c.toNat && c.toNat ≤ 0x200a) || c.toNat ∈ [0x2028, 0x2029, 0x202f, 0x205f, 0x3000]

/-- `str::trim_matches` -/
def trimMatches (p : Char → Bool) (input : List Char) : List Char :=
  ((input.dropWhile p).reverse.dropWhile p).reverse

/-- `str::trim` -/
def trim : List Char → List Char := trimMatches isWhitespace

/-- `str::split_once` on a character. -/
def splitOnce (sep : Char) (input : List Char) : Option (List Char × List Char) :=
  match input.span (· ≠ sep) with
  | (_, []) => none
  | (before, _ :: after) => some (before, after)

theorem splitOnce_append_cons {sep : Char} {before : List Char} (h : sep ∉ before)
    (after : List Char) : splitOnce sep (before ++ sep :: after) = some (before, after) := by
  have hspan : (before ++ sep :: after).span (· ≠ sep) = (before, sep :: after) := by
    rw [List.span_eq_takeWhile_dropWhile, List.takeWhile_append_of_pos,
      List.dropWhile_append_of_pos,
      List.takeWhile_cons_of_neg, List.dropWhile_cons_of_neg, List.append_nil]
    · simp
    · simp
    · exact fun c hc => decide_eq_true fun heq => h (heq ▸ hc)
    · exact fun c hc => decide_eq_true fun heq => h (heq ▸ hc)
  rw [splitOnce, hspan]

theorem splitOnce_eq_none {sep : Char} {input : List Char} (h : sep ∉ input) :
    splitOnce sep input = none := by
  have hspan : input.span (· ≠ sep) = (input, []) := by
    rw [List.span_eq_takeWhile_dropWhile, List.takeWhile_eq_self_iff.mpr,
      List.dropWhile_eq_nil_iff.mpr]
    · exact fun c hc => decide_eq_true fun heq => h (heq ▸ hc)
    · exact fun c hc => decide_eq_true fun heq => h (heq ▸ hc)
  rw [splitOnce, hspan]

/-- `push_auth_param`: the key and the value of a parameter, if there is one. -/
def pushAuthParam (input : List Char) : Option (List Char × List Char) :=
  match splitOnce '=' (trim input) with
  | none => none
  | some (key, value) => some ((trim key).map Char.toLower, trimMatches (· = '"') (trim value))

/-- The loop of `split_auth_params`: the parts between the commas that are not in quotes. `part` is
the part that the loop is in. -/
def authParts (inQuotes : Bool) (part : List Char) : List Char → List (List Char)
  | [] => [part]
  | c :: input =>
    if c = '"' then authParts (!inQuotes) (part ++ [c]) input
    else if c = ',' ∧ inQuotes = false then part :: authParts inQuotes [] input
    else authParts inQuotes (part ++ [c]) input

/-- `split_auth_params` -/
def splitAuthParams (input : List Char) : List (List Char × List Char) :=
  (authParts false [] input).filterMap pushAuthParam

/-- The value of the last parameter with the given key. -/
def lastValue (params : List (List Char × List Char)) (key : String) : Option String :=
  (params.reverse.find? fun param => param.1 = key.toList).map fun param => String.ofList param.2

/-- `parse_bearer_challenge` -/
def parseBearerChallenge (value : String) : Option BearerChallenge :=
  if "Bearer ".toList <+: trim value.toList then
    let params := splitAuthParams ((trim value.toList).drop "Bearer ".toList.length)
    match lastValue params "realm" with
    | none => none
    | some realm =>
      some { realm, service := lastValue params "service", scope := lastValue params "scope" }
  else none

/-- The value of a header, as `HeaderValue::to_str` converts it: a text, or an error in words. -/
abbrev HeaderValue := Except String String

/-- `bearer_challenge_from_headers`, on the `WWW-Authenticate` header. -/
def bearerChallengeFromHeaders (header : Option HeaderValue) :
    Except Error (Option BearerChallenge) :=
  match header with
  | none => .ok none
  | some (.error msg) => .error (.remote msg)
  | some (.ok value) => .ok (parseBearerChallenge value)

/-- A header with a challenge. -/
def smallHeader : String := "Bearer realm=\"https://a/t\",scope=\"r:pull,push\""

/-- The challenge in `smallHeader`. -/
def smallChallenge : BearerChallenge where
  realm := "https://a/t"
  service := none
  scope := some "r:pull,push"

theorem smallHeader_challenge :
    bearerChallengeFromHeaders (some (.ok smallHeader)) = .ok (some smallChallenge) := by
  decide +kernel

end Oci

end Lazyd
