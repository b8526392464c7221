import UpsServer.Framework.Decimal
import UpsServer.Framework.Fallible

/-!
# The parameters of the program

`MainOptions::parse` walks over the arguments with the option that waits for its value, and puts
each option with its value into a map, which keeps the first value of a key. `doParameters` sets
the log level and the port by it or leaves the program.

What the walk finds can be said without it: the value of an option is told by what stands behind
its first occurrence.
-/

namespace UpsServer

open Framework

namespace MainOptions

/-! ## The options -/

/-- A string literal. -/
def literal (t : String) : ByteString := t.toList.map asciiByte

/-- `std::map<std::string, std::string>`. -/
abbrev Options := List (ByteString × ByteString)

/-- `options_.insert`, which changes nothing for a key that is there. -/
def insert (options : Options) (key value : ByteString) : Options :=
  if (options.lookup key).isSome then options else options ++ [(key, value)]

/-- `p[0] == '-'`; an empty string has a null character there. -/
def isOption (p : ByteString) : Bool := p.head? == some 45

/-- The loop of `MainOptions::parse` over the arguments behind the program's name: `first` and
    `second` are the option that waits for its value. -/
def parseFrom (first second : ByteString) (options : Options) : List ByteString → Options
  | [] => options
  | p :: rest =>
    if first = [] ∧ isOption p then
      parseFrom p second (if rest = [] then insert options p second else options) rest
    else if first ≠ [] ∧ isOption p then
      let options := insert options first (literal "null")
      parseFrom p [] (if rest = [] then insert options p [] else options) rest
    else if first ≠ [] then
      parseFrom [] [] (insert options first p) rest
    else parseFrom first second options rest

/-- `MainOptions::parse`. -/
def parse (args : List ByteString) : Options := parseFrom [] [] [] args

/-- `MainOptions::hasKey`. -/
def hasKey (options : Options) (key : ByteString) : Bool := (options.lookup key).isSome

/-- `MainOptions::getParamFromKey`, the second component of the pair. -/
def getParamFromKey (options : Options) (key : ByteString) : Option ByteString :=
  options.lookup key

end MainOptions

/-! ## The parameters -/

/-- `isNumeric`. -/
def isNumeric (str : ByteString) : Bool := str.all fun c => decide (48 ≤ c ∧ c ≤ 57)

/-- The global variables and the lines on `std::cerr`. -/
structure Globals where
  loglevel : Int
  port : Int
  cerr : List String

/-- `int loglevel = 1; int port = 55555;`. -/
def Globals.init : Globals := ⟨1, 55555, []⟩

/-- `_exit`. -/
structure Exit where
  status : Int
  globals : Globals

section Parameters

-- `atoi` is used on numerals of any length, and specified for those that fit an `int`.
variable (atoi : ByteString → Int)

/-- What `doParameters` does for one key. -/
def doParameter (options : MainOptions.Options) (key : ByteString) (low high : Int)
    (complaint : String) (store : Int → Globals → Globals) (g : Globals) : Except Exit Globals :=
  if MainOptions.hasKey options key then
    let type := (MainOptions.getParamFromKey options key).getD []
    if type ≠ [] then
      if isNumeric type ∧ atoi type ≤ high ∧ low ≤ atoi type then .ok (store (atoi type) g)
      else .ok { g with cerr := g.cerr ++ [complaint] }
    else .error ⟨-1, g⟩
  else .ok g

/-- `-l`. -/
def doLogLevel (options : MainOptions.Options) : Globals → Except Exit Globals :=
  doParameter atoi options (MainOptions.literal "-l") 0 3 "Wrong log level option, using default"
    fun value g => { g with loglevel := value }

/-- `-p`. -/
def doPort (options : MainOptions.Options) : Globals → Except Exit Globals :=
  doParameter atoi options (MainOptions.literal "-p") 1 65535 "Wrong port option, using default"
    fun value g => { g with port := value }

/-- `doParameters`. -/
def doParameters (args : List ByteString) : Except Exit Globals :=
  let options := MainOptions.parse args
  if MainOptions.hasKey options (MainOptions.literal "-h") then .error ⟨0, .init⟩
  else doLogLevel atoi options .init >>= doPort atoi options

end Parameters

namespace MainOptions

/-! ## What the walk finds -/

/-- What stands behind an option, as its value. -/
def argument : List ByteString → ByteString
  | [] => []
  | p :: _ => if isOption p then literal "null" else p

/-- The value of an option: what stands behind its first occurrence. -/
def given (key : ByteString) : List ByteString → Option ByteString
  | [] => none
  | p :: rest => if p = key ∧ isOption p then some (argument rest) else given key rest

theorem lookup_insert (options : Options) (key value k : ByteString) :
    (insert options key value).lookup k
      = (options.lookup k).or (if key = k then some value else none) := by
  unfold insert
  split
  · rename_i hsome
    by_cases heq : key = k
    · subst heq
      obtain ⟨v, hv⟩ := Option.isSome_iff_exists.mp hsome
      rw [hv]
      rfl
    · rw [if_neg heq, Option.or_none]
  · rw [List.lookup_append]
    congr 1
    by_cases heq : key = k
    · simp [heq]
    · rw [if_neg heq, List.lookup_cons, beq_false_of_ne (Ne.symm heq)]
      rfl

/-- What the walk still owes an option that waits. An option at the end does not wait. -/
def owed (first k : ByteString) (args : List ByteString) : Option ByteString :=
  if first ≠ [] ∧ args ≠ [] ∧ first = k then some (argument args) else none

@[simp] theorem owed_none (k : ByteString) (args : List ByteString) : owed [] k args = none :=
  if_neg fun h => h.1 rfl

@[simp] theorem owed_nil (first k : ByteString) : owed first k [] = none :=
  if_neg fun h => h.2.1 rfl

theorem owed_of_ne {first : ByteString} (waits : first ≠ []) (k : ByteString)
    {args : List ByteString} (more : args ≠ []) :
    owed first k args = if first = k then some (argument args) else none := by
  simp only [owed, ne_eq, waits, more, not_false_eq_true, true_and]

/-- An option begins to wait, or is put into the map as the last argument. -/
theorem lookup_begin (options : Options) {p : ByteString} (option : isOption p) (k : ByteString)
    (rest : List ByteString) :
    ((if rest = [] then insert options p [] else options).lookup k).or (owed p k rest)
      = (options.lookup k).or (if p = k then some (argument rest) else none) := by
  have hp : p ≠ [] := by
    rintro rfl
    cases option
  by_cases hrest : rest = []
  · subst hrest
    rw [if_pos rfl, lookup_insert, owed_nil, Option.or_none]
    rfl
  · rw [if_neg hrest, owed_of_ne hp k hrest]

theorem given_cons_of_isOption {p : ByteString} (option : isOption p) (k : ByteString)
    (rest : List ByteString) :
    given k (p :: rest) = (if p = k then some (argument rest) else none).or (given k rest) := by
  rw [given]
  by_cases heq : p = k
  · rw [if_pos ⟨heq, option⟩, if_pos heq]
    rfl
  · rw [if_neg fun h => heq h.1, if_neg heq]
    rfl

theorem given_cons_of_value {p : ByteString} (value : ¬ isOption p) (k : ByteString)
    (rest : List ByteString) : given k (p :: rest) = given k rest := by
  rw [given, if_neg fun h => value h.2]

/-- The walk puts into the map what it owes and what stands behind the first occurrences. -/
theorem lookup_parseFrom (first : ByteString) (options : Options) (args : List ByteString)
    (k : ByteString) :
    (parseFrom first [] options args).lookup k
      = (options.lookup k).or ((owed first k args).or (given k args)) := by
  induction args generalizing first options with
  | nil => simp [parseFrom, given]
  | cons p rest ih =>
    rw [parseFrom]
    by_cases hoption : isOption p = true
    · rw [given_cons_of_isOption hoption]
      by_cases hfirst : first = []
      · rw [if_pos ⟨hfirst, hoption⟩, ih, ← Option.or_assoc, lookup_begin _ hoption,
          Option.or_assoc, hfirst, owed_none, Option.none_or]
      · rw [if_neg fun h => hfirst h.1, if_pos ⟨hfirst, hoption⟩, ih, ← Option.or_assoc,
          lookup_begin _ hoption, lookup_insert, Option.or_assoc, Option.or_assoc,
          owed_of_ne hfirst k (List.cons_ne_nil _ _), argument, if_pos hoption]
    · rw [given_cons_of_value hoption, if_neg fun h => hoption h.2, if_neg fun h => hoption h.2]
      by_cases hfirst : first = []
      · rw [if_neg fun h => h hfirst, ih, hfirst, owed_none, owed_none]
      · rw [if_pos hfirst, ih, lookup_insert, Option.or_assoc, owed_none, Option.none_or,
          owed_of_ne hfirst k (List.cons_ne_nil _ _), argument, if_neg hoption]

/-- The map holds what stands behind the first occurrence of each option. -/
theorem lookup_parse (args : List ByteString) (k : ByteString) :
    (parse args).lookup k = given k args := by
  rw [parse, lookup_parseFrom, owed_none, Option.none_or]
  rfl

theorem hasKey_parse {key : ByteString} (option : isOption key) (args : List ByteString) :
    hasKey (parse args) key = true ↔ key ∈ args := by
  rw [hasKey, lookup_parse]
  induction args with
  | nil => simp [given]
  | cons p rest ih =>
    rw [given, List.mem_cons]
    by_cases heq : p = key
    · subst heq
      simp [option]
    · rw [if_neg fun h => heq h.1, ih]
      simp [Ne.symm heq]

end MainOptions

/-! ## What the parameters set -/

/-- What is documented of `atoi`: it reads the numerals that fit an `int`. -/
def ReadsNumerals (atoi : ByteString → Int) : Prop :=
  ∀ digits n, readDigits digits 0 = some n → n < 2 ^ 31 → atoi digits = n

theorem isNumeric_iff {str : ByteString} (number : Nat) :
    isNumeric str = true ↔ ∃ n, readDigits str number = some n := by
  induction str generalizing number with
  | nil => simp [isNumeric, readDigits]
  | cons c str ih =>
    rw [readDigits]
    by_cases hdigit : 48 ≤ c ∧ c ≤ 57
    · rw [if_pos hdigit, ← ih]
      simp [isNumeric, hdigit]
    · rw [if_neg hdigit]
      simp [isNumeric, hdigit]

/-- A setting is in its range, it is the number that was given if that is in the range, and it is
    the default if no number was given. Nothing more is known of a number that is no `int`. -/
structure Chosen (type : Option ByteString) (low high default value : Int) : Prop where
  low_le : low ≤ value
  le_high : value ≤ high
  written : ∀ digits n, type = some digits → readDigits digits 0 = some n → low ≤ n → n ≤ high →
    n < 2 ^ 31 → value = n
  default_of_not_written : value ≠ default → ∃ digits n, type = some digits ∧
    readDigits digits 0 = some n ∧ (value = n ∨ 2 ^ 31 ≤ n)

theorem Chosen.of_none {low high default : Int} (le : low ≤ default) (le' : default ≤ high) :
    Chosen none low high default default :=
  ⟨le, le', fun _ _ h => (by cases h), fun h => absurd rfl h⟩

/-- One parameter exits when nothing is given for it, and otherwise sets what was chosen and
    nothing else. -/
theorem doParameter_ensures {atoi : ByteString → Int} (hatoi : ReadsNumerals atoi)
    {options : MainOptions.Options} {key : ByteString} {low high : Int} {complaint : String}
    {store : Int → Globals → Globals} {g : Globals} (setting other : Globals → Int)
    (stored : ∀ value g, setting (store value g) = value ∧ other (store value g) = other g)
    (complained : ∀ g lines, setting { g with cerr := lines } = setting g ∧
      other { g with cerr := lines } = other g)
    (le : low ≤ setting g) (le' : setting g ≤ high) :
    Ensures (doParameter atoi options key low high complaint store g)
      (fun g' => options.lookup key ≠ some [] ∧
        Chosen (options.lookup key) low high (setting g) (setting g') ∧ other g' = other g)
      (fun exit => exit.status = -1 ∧ options.lookup key = some []) := by
  unfold doParameter MainOptions.hasKey MainOptions.getParamFromKey
  cases htype : options.lookup key with
  | none => exact ⟨by simp, Chosen.of_none le le', rfl⟩
  | some digits =>
    by_cases hempty : digits = []
    · subst hempty
      exact ⟨rfl, rfl⟩
    · have hne : some digits ≠ some [] := fun h => hempty (Option.some.inj h)
      simp only [Option.isSome_some, if_true, Option.getD_some, ne_eq, hempty, not_false_eq_true]
      split
      · rename_i hchosen
        obtain ⟨hnumeric, hhigh, hlow⟩ := hchosen
        obtain ⟨n, hn⟩ := (isNumeric_iff 0).mp hnumeric
        obtain ⟨hsetting, hother⟩ := stored (atoi digits) g
        refine ⟨hne, ⟨by rw [hsetting]; exact hlow, by rw [hsetting]; exact hhigh, ?_, ?_⟩, hother⟩
        · intro digits' m hdigits hm _ _ hlt
          obtain rfl := Option.some.inj hdigits
          rw [hsetting]
          exact hatoi digits m hm hlt
        · intro _
          refine ⟨digits, n, rfl, hn, ?_⟩
          rw [hsetting]
          by_cases hlt : n < 2 ^ 31
          · exact Or.inl (hatoi digits n hn hlt)
          · exact Or.inr (Nat.le_of_not_lt hlt)
      · rename_i hrefused
        obtain ⟨hsetting, hother⟩ := complained g (g.cerr ++ [complaint])
        refine ⟨hne, ⟨by rw [hsetting]; exact le, by rw [hsetting]; exact le', ?_, ?_⟩, hother⟩
        · intro digits' m hdigits hm hlow hhigh hlt
          obtain rfl := Option.some.inj hdigits
          have hvalue := hatoi digits m hm hlt
          exact absurd ⟨(isNumeric_iff 0).mpr ⟨m, hm⟩, hvalue ▸ hhigh, hvalue ▸ hlow⟩ hrefused
        · intro hchanged
          exact absurd hsetting hchanged

/-- **The parameters**: the program is left with 0 exactly when help is asked for and with -1
    exactly when the value of an option is missing. Otherwise the log level is one of the four, the
    port is one that can be listened at, and both are what the arguments say. -/
theorem parameters_are_read (atoi : ByteString → Int) (hatoi : ReadsNumerals atoi)
    (args : List ByteString) :
    Ensures (doParameters atoi args)
      (fun g => MainOptions.literal "-h" ∉ args ∧
        (∀ key ∈ ["-l", "-p"], MainOptions.given (MainOptions.literal key) args ≠ some []) ∧
        Chosen (MainOptions.given (MainOptions.literal "-l") args) 0 3 1 g.loglevel ∧
        Chosen (MainOptions.given (MainOptions.literal "-p") args) 1 65535 55555 g.port)
      (fun exit =>
        (exit.status = 0 ∧ MainOptions.literal "-h" ∈ args) ∨
        (exit.status = -1 ∧ MainOptions.literal "-h" ∉ args ∧
          ∃ key ∈ ["-l", "-p"], MainOptions.given (MainOptions.literal key) args = some [])) := by
  have hhelp : MainOptions.hasKey (MainOptions.parse args) (MainOptions.literal "-h") = true ↔
      MainOptions.literal "-h" ∈ args := MainOptions.hasKey_parse rfl args
  unfold doParameters
  by_cases hmem : MainOptions.literal "-h" ∈ args
  · rw [if_pos (hhelp.mpr hmem)]
    exact Or.inl ⟨rfl, hmem⟩
  · rw [if_neg fun h => hmem (hhelp.mp h)]
    have hlevel : Ensures (doLogLevel atoi (MainOptions.parse args) .init) _ _ :=
      doParameter_ensures hatoi Globals.loglevel Globals.port (fun _ _ => ⟨rfl, rfl⟩)
        (fun _ _ => ⟨rfl, rfl⟩) (by decide) (by decide)
    refine Ensures.bind (hlevel.mono (fun _ h => h) ?_) ?_
    · rintro exit ⟨hstatus, hgiven⟩
      rw [MainOptions.lookup_parse] at hgiven
      exact Or.inr ⟨hstatus, hmem, "-l", by simp, hgiven⟩
    · rintro g - ⟨hgiven, hchosen, hport⟩
      have hport' : g.port = 55555 := hport
      have hlast : Ensures (doPort atoi (MainOptions.parse args) g) _ _ :=
        doParameter_ensures hatoi Globals.port Globals.loglevel (fun _ _ => ⟨rfl, rfl⟩)
          (fun _ _ => ⟨rfl, rfl⟩) (by rw [hport']; decide) (by rw [hport']; decide)
      rw [MainOptions.lookup_parse] at hgiven hchosen
      refine hlast.mono ?_ ?_
      · rintro g' ⟨hgiven', hchosen', hlevel'⟩
        rw [MainOptions.lookup_parse] at hgiven' hchosen'
        refine ⟨hmem, ?_, by rw [hlevel']; exact hchosen, hport' ▸ hchosen'⟩
        simp only [List.mem_cons, List.not_mem_nil, or_false, forall_eq_or_imp, forall_eq]
        exact ⟨hgiven, hgiven'⟩
      · rintro exit ⟨hstatus, hgiven'⟩
        rw [MainOptions.lookup_parse] at hgiven'
        exact Or.inr ⟨hstatus, hmem, "-p", by simp, hgiven'⟩

/-- A numeral is read, whatever its size; anything else is 0. -/
def atoiOfDigits (digits : ByteString) : Int := ((readDigits digits 0).getD 0 : Nat)

theorem readsNumerals_atoiOfDigits : ReadsNumerals atoiOfDigits := by
  intro digits n hn _
  rw [atoiOfDigits, hn]
  rfl

/-- `-l -p 8080 -p 1`. -/
def severalPorts : List ByteString := ["-l", "-p", "8080", "-p", "1"].map MainOptions.literal

/-- The log level stays the default, and the port is the first one. -/
theorem parameters_are_read_several :
    ∃ g, doParameters atoiOfDigits severalPorts = .ok g ∧ g.loglevel = 1 ∧ g.port = 8080 := by
  have hread := parameters_are_read atoiOfDigits readsNumerals_atoiOfDigits severalPorts
  cases hresult : doParameters atoiOfDigits severalPorts with
  | error exit =>
    rw [hresult] at hread
    rcases hread with ⟨-, hhelp⟩ | ⟨-, -, hmissing⟩
    · exact absurd hhelp (by decide)
    · exact absurd hmissing (by decide)
  | ok g =>
    rw [hresult] at hread
    obtain ⟨-, -, hlevel, hport⟩ := hread
    refine ⟨g, rfl, ?_, ?_⟩
    · by_contra hchanged
      -- what stands behind `-l` is no number
      obtain ⟨digits, n, hdigits, hn, -⟩ := hlevel.default_of_not_written hchanged
      obtain rfl : MainOptions.literal "null" = digits := Option.some.inj hdigits
      cases hn
    · exact hport.written (MainOptions.literal "8080") 8080 rfl rfl (by decide) (by decide)
        (by decide)

end UpsServer
