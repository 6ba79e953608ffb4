import Lazyd.Remote.Challenge

/-!
# The parameters of a challenge

A registry writes a challenge as a list of parameters `key="value"` with commas in between. A value
can have commas, equals signs and spaces in it, and there can be spaces around the commas and the
equals signs of the list. `parse_bearer_challenge` reads back the parameters that have been written,
whatever they are: a comma in a value is in quotes, the first equals sign of a part is the one after
the key, and what is trimmed are the spaces and the two quotes that have been written.

## Main definitions

* `Oci.AuthParam` : a parameter, with the spaces that it is written with.
* `Oci.AuthParam.text`, `Oci.renderChallenge` : how parameters are written.
* `Oci.LastValue` : the value of the last parameter with a name, if there is one.

## Main results

* `Oci.trimMatches_append` : what is trimmed.
* `Oci.pushAuthParam_text` : one parameter is read back.
* `Oci.splitAuthParams_join` : a list of parameters is read back.
* `Oci.parseBearerChallenge_render` : the challenge that a registry has written.

Source: `src/remote/oci.rs`, lines 343–387.
-/

namespace Lazyd

namespace Oci

/-! ### How a challenge is written -/

/-- A character of a parameter's name. -/
def isKeyChar (c : Char) : Bool :=
  c.isAlphanum || c = '-' || c = '_'

/-- A parameter, with the numbers of spaces before and after it and around its equals sign. -/
structure AuthParam where
  key : List Char
  key_ne : key ≠ []
  key_chars : ∀ c ∈ key, isKeyChar c = true
  value : List Char
  value_quote : '"' ∉ value
  before : ℕ
  beforeEq : ℕ
  afterEq : ℕ
  after : ℕ

/-- The given number of spaces. -/
def spaces (n : ℕ) : List Char := List.replicate n ' '

/-- The text of a value, in quotes. -/
def AuthParam.quoted (param : AuthParam) : List Char := ['"'] ++ param.value ++ ['"']

/-- The text of a parameter. -/
def AuthParam.text (param : AuthParam) : List Char :=
  (param.key ++ spaces param.beforeEq) ++ '=' :: (spaces param.afterEq ++ param.quoted)

/-- The text of a parameter and the ones after it, with commas in between and spaces around them. -/
def joinParams (param : AuthParam) : List AuthParam → List Char
  | [] => param.text
  | next :: params =>
    param.text ++ spaces param.after ++ ',' :: (spaces next.before ++ joinParams next params)

/-- The header of a challenge with the given parameters. -/
def renderChallenge : List AuthParam → String
  | [] => "Bearer "
  | param :: params => String.ofList ("Bearer ".toList ++ joinParams param params)

/-- The parameter has the name, in any case. -/
def AuthParam.Named (param : AuthParam) (name : String) : Prop :=
  param.key.map Char.toLower = name.toList

instance (param : AuthParam) (name : String) : Decidable (param.Named name) :=
  inferInstanceAs (Decidable (_ = _))

/-- The value of the last parameter with the name, if there is one. -/
def LastValue (params : List AuthParam) (name : String) : Option String → Prop
  | none => ∀ param ∈ params, ¬param.Named name
  | some value => ∃ before param after, params = before ++ param :: after ∧ param.Named name ∧
      value = String.ofList param.value ∧ ∀ later ∈ after, ¬later.Named name

/-- A parameter that `parse_bearer_challenge` looks at. -/
def AuthParam.Known (param : AuthParam) : Prop :=
  param.Named "realm" ∨ param.Named "service" ∨ param.Named "scope"

instance (param : AuthParam) : Decidable param.Known :=
  inferInstanceAs (Decidable (_ ∨ _))

/-! ### Trimming -/

/-- What is trimmed are the characters at both ends up to the first and the last one that stay. -/
theorem trimMatches_append {p : Char → Bool} {a mid b : List Char} (ha : ∀ c ∈ a, p c = true)
    (hb : ∀ c ∈ b, p c = true) (hhead : ∀ c ∈ mid.head?, p c = false)
    (hlast : ∀ c ∈ mid.getLast?, p c = false) : trimMatches p (a ++ mid ++ b) = mid := by
  -- nothing is dropped from a text with an end that stays
  have hstop (text rest : List Char) (hrest : ∀ c ∈ rest, p c = true)
      (h : ∀ c ∈ text.head?, p c = false) :
      (text ++ rest).dropWhile p = if text = [] then [] else text ++ rest := by
    cases text with
    | nil => exact List.dropWhile_eq_nil_iff.mpr hrest
    | cons c text =>
      have hc : ¬p c = true := by simp [h c rfl]
      rw [if_neg (List.cons_ne_nil _ _), List.cons_append, List.dropWhile_cons_of_neg hc]
  rw [trimMatches, List.append_assoc, List.dropWhile_append_of_pos ha, hstop mid b hb hhead]
  by_cases hmid : mid = []
  · rw [if_pos hmid, hmid]
    rfl
  · have hstop' := hstop mid.reverse [] (by simp) (by simpa using hlast)
    rw [List.append_nil, if_neg (by simpa using hmid)] at hstop'
    rw [if_neg hmid, List.reverse_append, List.dropWhile_append_of_pos (by simpa using hb),
      hstop', List.reverse_reverse]

theorem isWhitespace_of_mem_spaces {n : ℕ} : ∀ c ∈ spaces n, isWhitespace c = true := by
  intro c hc
  rw [List.eq_of_mem_replicate hc]
  decide

/-- What is in a text without spaces at its ends. -/
theorem trim_spaces {text : List Char} (m n : ℕ)
    (hhead : ∀ c ∈ text.head?, isWhitespace c = false)
    (hlast : ∀ c ∈ text.getLast?, isWhitespace c = false) :
    trim (spaces m ++ text ++ spaces n) = text :=
  trimMatches_append isWhitespace_of_mem_spaces isWhitespace_of_mem_spaces hhead hlast

theorem trim_quoteEnd {text : List Char} (hhead : ∀ c ∈ text.head?, isWhitespace c = false)
    (hlast : text.getLast? = some '"') : trim text = text := by
  have h := trim_spaces 0 0 hhead (hlast ▸ by simp [isWhitespace])
  rwa [spaces, List.replicate_zero, List.nil_append, List.append_nil] at h

/-! ### One parameter -/

theorem isKeyChar_ne {c : Char} (h : isKeyChar c = true) :
    isWhitespace c = false ∧ c ≠ '=' ∧ c ≠ ',' ∧ c ≠ '"' := by
  have hc : (48 ≤ c.toNat ∧ c.toNat ≤ 57) ∨ (65 ≤ c.toNat ∧ c.toNat ≤ 90) ∨
      (97 ≤ c.toNat ∧ c.toNat ≤ 122) ∨ c.toNat = 45 ∨ c.toNat = 95 := by
    change (((decide (65 ≤ c.val ∧ c.val ≤ 90) || (decide (97 ≤ c.val) && decide (c.val ≤ 122))) ||
      (decide (48 ≤ c.val) && decide (c.val ≤ 57))) || decide (c = '-') ||
        decide (c = '_')) = true at h
    simp only [Bool.or_eq_true, Bool.and_eq_true, decide_eq_true_eq, UInt32.le_iff_toNat_le] at h
    rcases h with (((h | h) | h) | rfl) | rfl
    · exact Or.inr (Or.inl h)
    · exact Or.inr (Or.inr (Or.inl h))
    · exact Or.inl h
    · simp
    · simp
  refine ⟨?_, ?_, ?_, ?_⟩
  · simp only [isWhitespace, List.mem_cons, List.not_mem_nil, or_false, Bool.or_eq_false_iff,
      Bool.and_eq_false_iff, decide_eq_false_iff_not]
    omega
  all_goals
    rintro rfl
    simp at hc

section Param

variable (param : AuthParam)

/-- The name as `push_auth_param` reads it, and the value. -/
def AuthParam.pair : List Char × List Char := (param.key.map Char.toLower, param.value)

theorem AuthParam.notMem_key {c : Char} (h : isKeyChar c = false) (n : ℕ) (hspace : c ≠ ' ') :
    c ∉ param.key ++ spaces n := by
  rw [List.mem_append, not_or]
  constructor
  · intro hc
    exact absurd (param.key_chars c hc) (by simp [h])
  · intro hc
    exact hspace (List.eq_of_mem_replicate hc)

theorem AuthParam.trim_key (n : ℕ) : trim (param.key ++ spaces n) = param.key := by
  have hkey : ∀ c ∈ param.key, isWhitespace c = false :=
    fun c hc => (isKeyChar_ne (param.key_chars c hc)).1
  exact trim_spaces 0 n (fun c hc => hkey c (List.mem_of_mem_head? hc))
    (fun c hc => hkey c (List.mem_of_getLast? hc))

theorem AuthParam.getLast?_quoted : param.quoted.getLast? = some '"' :=
  List.getLast?_concat

theorem AuthParam.trim_quoted (n : ℕ) : trim (spaces n ++ param.quoted) = param.quoted := by
  have hquote : ∀ c ∈ some '"', isWhitespace c = false := by simp [isWhitespace]
  have h := trim_spaces n 0 (show ∀ c ∈ param.quoted.head?, _ from hquote)
    (param.getLast?_quoted ▸ hquote)
  rwa [spaces, spaces, List.replicate_zero, List.append_nil] at h

theorem AuthParam.trimMatches_quoted : trimMatches (· = '"') param.quoted = param.value := by
  have hvalue : ∀ c ∈ param.value, decide (c = '"') = false :=
    fun c hc => decide_eq_false fun heq => param.value_quote (heq ▸ hc)
  exact trimMatches_append (by simp) (by simp) (fun c hc => hvalue c (List.mem_of_mem_head? hc))
    (fun c hc => hvalue c (List.mem_of_getLast? hc))

theorem AuthParam.trim_text (m n : ℕ) :
    trim (spaces m ++ param.text ++ spaces n) = param.text := by
  refine trim_spaces m n ?_ ?_
  · obtain ⟨c, key, hkey⟩ := List.exists_cons_of_ne_nil param.key_ne
    intro c' hc'
    rw [AuthParam.text, hkey] at hc'
    obtain rfl := Option.some.inj hc'
    exact (isKeyChar_ne (param.key_chars c (hkey ▸ List.mem_cons_self))).1
  · intro c hc
    rw [AuthParam.text, List.getLast?_append, List.getLast?_cons, List.getLast?_append,
      param.getLast?_quoted] at hc
    obtain rfl : '"' = c := Option.some.inj hc
    decide

/-- **One parameter.** It is read back, with any number of spaces around it. -/
theorem pushAuthParam_text (m n : ℕ) :
    pushAuthParam (spaces m ++ param.text ++ spaces n) = some param.pair := by
  have heq : '=' ∉ param.key ++ spaces param.beforeEq :=
    param.notMem_key (by decide) _ (by decide)
  rw [pushAuthParam, param.trim_text, AuthParam.text, splitOnce_append_cons heq]
  simp only [param.trim_key, param.trim_quoted, param.trimMatches_quoted, AuthParam.pair]

/-! ### Lists of parameters -/

theorem authParts_append {inQuotes : Bool} {text : List Char} (hquote : '"' ∉ text)
    (hcomma : inQuotes = false → ',' ∉ text) (part rest : List Char) :
    authParts inQuotes part (text ++ rest) = authParts inQuotes (part ++ text) rest := by
  induction text generalizing part with
  | nil => rw [List.append_nil, List.nil_append]
  | cons c text ih =>
    rw [List.mem_cons, not_or] at hquote
    have hc : ¬(c = ',' ∧ inQuotes = false) := by
      rintro ⟨rfl, hfalse⟩
      exact hcomma hfalse List.mem_cons_self
    rw [List.cons_append, authParts, if_neg (Ne.symm hquote.1), if_neg hc,
      ih hquote.2 fun h hmem => hcomma h (List.mem_cons_of_mem _ hmem), List.append_assoc,
      List.singleton_append]

theorem authParts_spaces (n : ℕ) (part rest : List Char) :
    authParts false part (spaces n ++ rest) = authParts false (part ++ spaces n) rest := by
  refine authParts_append ?_ (fun _ => ?_) part rest
  · intro h
    exact absurd (List.eq_of_mem_replicate h) (by decide)
  · intro h
    exact absurd (List.eq_of_mem_replicate h) (by decide)

theorem authParts_text (part rest : List Char) :
    authParts false part (param.text ++ rest) = authParts false (part ++ param.text) rest := by
  -- up to the value
  have hkey : authParts false part (param.text ++ rest) =
      authParts false (part ++ (param.key ++ spaces param.beforeEq) ++ ['='] ++
        spaces param.afterEq) (param.quoted ++ rest) := by
    rw [AuthParam.text, List.append_assoc, authParts_append
      (param.notMem_key (by decide) _ (by decide))
      (fun _ => param.notMem_key (by decide) _ (by decide)), List.cons_append, authParts,
      if_neg (by decide), if_neg (by decide), List.append_assoc (spaces _), authParts_spaces]
  -- the value is in quotes
  have hquoted (part : List Char) : authParts false part (param.quoted ++ rest) =
      authParts false (part ++ param.quoted) rest := by
    rw [AuthParam.quoted, List.append_assoc, List.append_assoc, List.singleton_append, authParts,
      if_pos rfl, Bool.not_false, authParts_append param.value_quote (by simp),
      List.singleton_append, authParts, if_pos rfl, Bool.not_true]
    simp only [List.append_assoc, List.cons_append]
  rw [hkey, hquoted, AuthParam.text]
  simp only [List.append_assoc, List.cons_append, List.nil_append]

end Param

/-- **A list of parameters.** All of them are read back. -/
theorem splitAuthParams_join (n : ℕ) (param : AuthParam) (params : List AuthParam) :
    (authParts false (spaces n) (joinParams param params)).filterMap pushAuthParam =
      (param :: params).map AuthParam.pair := by
  induction params generalizing n param with
  | nil =>
    have hpush := pushAuthParam_text param n 0
    rw [spaces, spaces, List.replicate_zero, List.append_nil] at hpush
    rw [joinParams, ← List.append_nil param.text, authParts_text, authParts, spaces,
      List.filterMap_cons_some hpush, List.filterMap_nil]
    rfl
  | cons next params ih =>
    rw [joinParams, List.append_assoc, authParts_text, authParts_spaces, authParts,
      if_neg (by decide), if_pos ⟨rfl, rfl⟩,
      List.filterMap_cons_some (pushAuthParam_text param n param.after), authParts_spaces,
      List.nil_append, ih, List.map_cons (l := next :: params)]

/-! ### The challenge -/

theorem getLast?_joinParams (param : AuthParam) (params : List AuthParam) :
    (joinParams param params).getLast? = some '"' := by
  induction params generalizing param with
  | nil =>
    rw [joinParams, AuthParam.text, List.getLast?_append, List.getLast?_cons,
      List.getLast?_append, param.getLast?_quoted]
    rfl
  | cons next params ih =>
    rw [joinParams, List.getLast?_append, List.getLast?_cons, List.getLast?_append, ih]
    rfl

/-- The challenge in a header with the prefix. -/
theorem parseBearerChallenge_bearer {value : String} {input : List Char}
    (h : trim value.toList = "Bearer ".toList ++ input) :
    parseBearerChallenge value =
      match lastValue (splitAuthParams input) "realm" with
      | none => none
      | some realm => some {
          realm
          service := lastValue (splitAuthParams input) "service"
          scope := lastValue (splitAuthParams input) "scope" } := by
  rw [parseBearerChallenge, h]
  generalize "Bearer ".toList = bearer
  have hdrop : (bearer ++ input).drop bearer.length = input := List.drop_left
  rw [if_pos (List.prefix_append _ _)]
  generalize (bearer ++ input).drop bearer.length = rest at hdrop ⊢
  subst hdrop
  rfl

/-- What is read back of a header: the last values of the three parameters. -/
theorem parseBearerChallenge_eq (params : List AuthParam) :
    parseBearerChallenge (renderChallenge params) =
      match lastValue (params.map AuthParam.pair) "realm" with
      | none => none
      | some realm => some {
          realm
          service := lastValue (params.map AuthParam.pair) "service"
          scope := lastValue (params.map AuthParam.pair) "scope" } := by
  cases params with
  | nil =>
    -- the space at the end is trimmed, and with it the prefix
    decide +kernel
  | cons param params =>
    have hhead : ∀ c ∈ ("Bearer ".toList ++ joinParams param params).head?,
        isWhitespace c = false := by
      intro c hc
      obtain rfl : 'B' = c := Option.some.inj hc
      decide
    have hlast : ("Bearer ".toList ++ joinParams param params).getLast? = some '"' := by
      rw [List.getLast?_append, getLast?_joinParams]
      rfl
    have htrim : trim (renderChallenge (param :: params)).toList =
        "Bearer ".toList ++ joinParams param params :=
      (congrArg trim String.toList_ofList).trans (trim_quoteEnd hhead hlast)
    have hparams : splitAuthParams (joinParams param params) =
        (param :: params).map AuthParam.pair := splitAuthParams_join 0 param params
    rw [parseBearerChallenge_bearer htrim, hparams]

/-- The value of the last parameter with a name, as the parser finds it. -/
theorem lastValue_map_pair (params : List AuthParam) (name : String) :
    lastValue (params.map AuthParam.pair) name =
      (params.reverse.find? fun param => param.Named name).map
        fun param => String.ofList param.value := by
  rw [lastValue, ← List.map_reverse, List.find?_map, Option.map_map]
  rfl

theorem lastValue_pair {params : List AuthParam} {name : String} {value : Option String} :
    lastValue (params.map AuthParam.pair) name = value ↔ LastValue params name value := by
  rw [lastValue_map_pair]
  cases value with
  | none =>
    rw [Option.map_eq_none_iff, List.find?_eq_none]
    simp only [List.mem_reverse, decide_eq_true_eq, LastValue]
  | some value =>
    simp only [Option.map_eq_some_iff, List.find?_eq_some_iff_append, decide_eq_true_eq,
      LastValue]
    constructor
    · rintro ⟨param, ⟨hnamed, after, before, heq, hafter⟩, rfl⟩
      refine ⟨before.reverse, param, after.reverse, ?_, hnamed, rfl, ?_⟩
      · rw [← List.reverse_reverse params, heq]
        simp only [List.reverse_append, List.reverse_cons, List.append_assoc,
          List.singleton_append]
      · intro later hlater
        simpa using hafter later (List.mem_reverse.mp hlater)
    · rintro ⟨before, param, after, rfl, hnamed, rfl, hafter⟩
      refine ⟨param, ⟨hnamed, after.reverse, before.reverse, ?_, ?_⟩, rfl⟩
      · simp only [List.reverse_append, List.reverse_cons, List.append_assoc,
          List.singleton_append]
      · intro later hlater
        simpa using hafter later (List.mem_reverse.mp hlater)

/-- Parameters with other names are not looked at. -/
theorem lastValue_filter_known {params : List AuthParam} {name : String}
    (hname : ∀ param : AuthParam, param.Named name → param.Known) :
    lastValue ((params.filter fun param => param.Known).map AuthParam.pair) name =
      lastValue (params.map AuthParam.pair) name := by
  have hsame : (fun param : AuthParam => decide (decide param.Known = true ∧
      decide (param.Named name) = true)) = fun param => decide (param.Named name) := by
    funext param
    simpa using hname param
  rw [lastValue_map_pair, lastValue_map_pair, ← List.filter_reverse, List.find?_filter, hsame]

/-- **Round trip.** A challenge is read back from the header with its parameters, whatever they are
and whatever spaces they are written with: its realm, service and scope are the values of the last
parameters with these names, and there is none without a realm. Other parameters have no effect. -/
theorem parseBearerChallenge_render (params : List AuthParam) :
    (∀ challenge, parseBearerChallenge (renderChallenge params) = some challenge ↔
      LastValue params "realm" (some challenge.realm) ∧
      LastValue params "service" challenge.service ∧
      LastValue params "scope" challenge.scope) ∧
    (parseBearerChallenge (renderChallenge params) = none ↔
      ∀ param ∈ params, ¬param.Named "realm") ∧
    parseBearerChallenge (renderChallenge (params.filter fun param => param.Known)) =
      parseBearerChallenge (renderChallenge params) := by
  refine ⟨fun challenge => ?_, ?_, ?_⟩
  · rw [parseBearerChallenge_eq, ← lastValue_pair, ← lastValue_pair, ← lastValue_pair]
    cases challenge with
    | mk realm service scope =>
      cases lastValue (params.map AuthParam.pair) "realm" <;> simp
  · rw [parseBearerChallenge_eq]
    change _ ↔ LastValue params "realm" none
    rw [← lastValue_pair]
    cases lastValue (params.map AuthParam.pair) "realm" <;> simp
  · rw [parseBearerChallenge_eq, parseBearerChallenge_eq,
      lastValue_filter_known fun _ h => Or.inl h,
      lastValue_filter_known fun _ h => Or.inr (Or.inl h),
      lastValue_filter_known fun _ h => Or.inr (Or.inr h)]

end Oci

end Lazyd
