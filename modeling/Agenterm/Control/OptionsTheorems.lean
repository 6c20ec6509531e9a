import Agenterm.Control.Options
import Agenterm.Lib.Checks
import Mathlib.Data.List.TakeWhile

/-!
# What the readers of a command line agree on

A reader of options finds the first word that is spelled like the option, wherever it stands before
a `--`. It agrees with the validator exactly when that word is one that the validator took for the
option (`readersAgree_iff`). The readers of new tabs go through the words as the validator does
until a positional word; `new-agent` is the one command of theirs whose validator goes on behind
it (`parsersAgree_iff`).
-/

namespace Agenterm

open List Option

/-! ## What the validator does -/

/-- The words that the validator lets through, with what it takes them for. -/
inductive Examines (specification : ControlCommandSpec) :
    Bool → List String → List WordRole → Prop
  | done (pending : Bool) : Examines specification pending [] []
  | value {words roles} (word : String) (rest : Examines specification false words roles) :
    Examines specification true (word :: words) (.value :: roles)
  | separator (words : List String) :
    Examines specification false ("--" :: words) (.separator :: words.map fun _ => .unexamined)
  | dash {words roles} (rest : Examines specification false words roles) :
    Examines specification false ("-" :: words) (.dash :: roles)
  | child (argument : String) (words : List String)
    (starts_child : specification.childAtFirstPositional = true)
    (no_dash : startsWithDash argument = false) :
    Examines specification false (argument :: words)
      (.unexamined :: words.map fun _ => .unexamined)
  | positional {words roles} (argument : String)
    (no_child : specification.childAtFirstPositional = false)
    (no_dash : startsWithDash argument = false) (rest : Examines specification false words roles) :
    Examines specification false (argument :: words) (.positional :: roles)
  | option {words roles} (argument value : String)
    (declared : argument ∈ specification.valueOptions) (dashed : startsWithDash argument = true)
    (ends : argument ≠ "--" ∧ argument ≠ "-") (value_ne : value ≠ "--")
    (rest : Examines specification true (value :: words) roles) :
    Examines specification false (argument :: value :: words) (.option value :: roles)
  | flag {words roles} (argument : String) (declared : argument ∈ specification.flagOptions)
    (dashed : startsWithDash argument = true) (ends : argument ≠ "--" ∧ argument ≠ "-")
    (no_value : argument ∉ specification.valueOptions)
    (rest : Examines specification false words roles) :
    Examines specification false (argument :: words) (.flag :: roles)

variable {argument : String} {i : Nat} {role : WordRole}

variable {v word : String}

section
variable {specification : ControlCommandSpec} {command : String} {pending : Bool}
  {args words : List String} {roles : List WordRole} {option : String}

lemma map_cons_eq_ok {result : Except String (List WordRole)}
    (h : result.map (role :: ·) = .ok roles) :
    ∃ rest, result = .ok rest ∧ roles = role :: rest := by
  cases result with
  | error error => cases h
  | ok rest => exact ⟨rest, rfl, (Except.ok.inj h).symm⟩

/-- The words that pass are those the relation lets through. -/
lemma examines_of_ok (h : examineWords specification command pending words = .ok roles) :
    Examines specification pending words roles := by
  induction words generalizing pending roles with
  | nil =>
    have hroles : roles = [] := by cases pending <;> exact (Except.ok.inj h).symm
    rw [hroles]
    exact .done pending
  | cons argument words ih =>
    cases pending with
    | true =>
      obtain ⟨rest, hrest, rfl⟩ := map_cons_eq_ok h
      exact .value argument (ih hrest)
    | false =>
      unfold examineWords at h
      split at h
      · rename_i hseparator
        obtain rfl := hseparator
        cases h
        exact .separator words
      rename_i hseparator
      split at h
      · rename_i hdash
        obtain rfl := hdash
        obtain ⟨rest, hrest, rfl⟩ := map_cons_eq_ok h
        exact .dash (ih hrest)
      rename_i hdash
      split at h
      · rename_i hchild
        cases h
        exact .child argument words hchild.1 (by simpa using hchild.2)
      rename_i hchild
      split at h
      · rename_i hpositional
        have hnodash : startsWithDash argument = false := by simpa using hpositional
        obtain ⟨rest, hrest, rfl⟩ := map_cons_eq_ok h
        refine .positional argument ?_ hnodash (ih hrest)
        by_contra hstarts
        exact hchild ⟨Bool.eq_true_of_not_eq_false hstarts, by rw [hnodash]; rfl⟩
      rename_i hdashed
      have hdashed : startsWithDash argument = true := by simpa using hdashed
      split at h
      · rename_i hvalue
        cases words with
        | nil => cases h
        | cons value words =>
          dsimp only [List.head?_cons] at h
          rw [Lib.ite_error_eq_ok] at h
          obtain ⟨hne, h⟩ := h
          obtain ⟨rest, hrest, rfl⟩ := map_cons_eq_ok h
          exact .option argument value (contains_iff_mem.mp hvalue) hdashed
            ⟨hseparator, hdash⟩ hne (ih hrest)
      rename_i hvalue
      split at h
      · rename_i hflag
        obtain ⟨rest, hrest, rfl⟩ := map_cons_eq_ok h
        exact .flag argument (contains_iff_mem.mp hflag) hdashed ⟨hseparator, hdash⟩
          (fun hmem => hvalue (contains_iff_mem.mpr hmem)) (ih hrest)
      · cases h

/-! ## Readers of options -/

/-- The word is one that the validator takes for an option. -/
def WordRole.isOption : WordRole → Bool
  | .option _ | .flag => true
  | _ => false

/-- Where the readers find an option. -/
def firstOccurrence (args : List String) (option : String) : Option Nat :=
  (args.takeWhile fun argument => argument ≠ "--").findIdx? fun argument => argument = option

/-- The readers find an option only where the validator took a word for it. -/
structure ReadersAgree (args : List String) (roles : List WordRole) (option : String) : Prop where
  has : hasOption args option = true →
    ∃ (i : Nat) (role : WordRole), args[i]? = some option ∧ roles[i]? = some role ∧
      role.isOption = true
  value : ∀ v, optionValue args option = some v →
    ∃ i, firstOccurrence args option = some i ∧
      (roles[i]? = some (.option v) ∨ roles[i]? = some .flag)

/-- The first word before a `--` that is spelled like the option is one that the validator took for
it. -/
def FirstIsOption (args : List String) (roles : List WordRole) (option : String) : Prop :=
  ∀ i, firstOccurrence args option = some i →
    ∃ role : WordRole, roles[i]? = some role ∧ role.isOption = true

instance (args : List String) (roles : List WordRole) (option : String) :
    Decidable (FirstIsOption args roles option) :=
  match h : firstOccurrence args option with
  | none => isTrue fun _ hi => absurd (h.symm.trans hi) (by intro heq; injection heq)
  | some i =>
    decidable_of_iff (roles[i]?.any WordRole.isOption = true) <| by
      rw [Option.any_eq_true]
      constructor
      · rintro ⟨role, hrole, hoption⟩ j hj
        obtain rfl := some.inj (h.symm.trans hj)
        exact ⟨role, hrole, hoption⟩
      · exact fun hfirst => hfirst i h

/-- Words that the validator takes for options stand before the first `--`. -/
lemma Examines.lt_takeWhile (h : Examines specification pending words roles)
    (hpending : pending = true → words.head? ≠ some "--") (hrole : roles[i]? = some role)
    (hoption : role.isOption = true) :
    i < (words.takeWhile fun argument => argument ≠ "--").length := by
  have hunexamined : ∀ {words : List String} {i : Nat},
      (words.map fun _ => WordRole.unexamined)[i]? = some role → role.isOption = false := by
    intro words i h
    rw [List.getElem?_map] at h
    obtain ⟨word, -, rfl⟩ := map_eq_some_iff.mp h
    rfl
  induction h generalizing i with
  | done pending => cases hrole
  | value word rest ih =>
    have hne : word ≠ "--" := fun heq => hpending rfl (congrArg some heq)
    rw [takeWhile_cons_of_pos (by simpa using hne), length_cons]
    cases i with
    | zero =>
      cases hrole
      cases hoption
    | succ i => exact Nat.succ_lt_succ (ih nofun hrole)
  | separator words =>
    cases i with
    | zero =>
      cases hrole
      cases hoption
    | succ i => exact absurd (hoption.symm.trans (hunexamined hrole)) nofun
  | dash rest ih =>
    rw [takeWhile_cons_of_pos (by decide), length_cons]
    cases i with
    | zero => exact Nat.succ_pos _
    | succ i => exact Nat.succ_lt_succ (ih nofun hrole)
  | child argument words _ _ =>
    cases i with
    | zero =>
      cases hrole
      cases hoption
    | succ i => exact absurd (hoption.symm.trans (hunexamined hrole)) nofun
  | positional argument _ hdash rest ih =>
    have hne : argument ≠ "--" := by
      rintro rfl
      exact absurd hdash (by decide)
    rw [takeWhile_cons_of_pos (by simpa using hne), length_cons]
    cases i with
    | zero => exact Nat.succ_pos _
    | succ i => exact Nat.succ_lt_succ (ih nofun hrole)
  | option argument value _ _ hends hvalue rest ih =>
    rw [takeWhile_cons_of_pos (by simpa using hends.1), length_cons]
    cases i with
    | zero => exact Nat.succ_pos _
    | succ i => exact Nat.succ_lt_succ (ih (fun _ heq => hvalue (some.inj heq)) hrole)
  | flag argument _ _ hends _ rest ih =>
    rw [takeWhile_cons_of_pos (by simpa using hends.1), length_cons]
    cases i with
    | zero => exact Nat.succ_pos _
    | succ i => exact Nat.succ_lt_succ (ih nofun hrole)

/-- The value of an option is the word behind it. -/
lemma Examines.value_next (h : Examines specification pending words roles)
    (hrole : roles[i]? = some (.option v)) : words[i + 1]? = some v := by
  have hunexamined : ∀ {words : List String} {i : Nat},
      (words.map fun _ => WordRole.unexamined)[i]? ≠ some (.option v) := by
    intro words i h
    rw [List.getElem?_map] at h
    obtain ⟨word, -, hword⟩ := map_eq_some_iff.mp h
    cases hword
  induction h generalizing i with
  | done pending => cases hrole
  | option argument value _ _ _ _ rest ih =>
    cases i with
    | zero =>
      injection some.inj hrole with hvalue
      rw [← hvalue]
      rfl
    | succ i => exact ih hrole
  | separator words | child argument words _ _ =>
    cases i with
    | zero => cases hrole
    | succ i => exact absurd hrole hunexamined
  | value _ rest ih | dash rest ih | positional _ _ _ rest ih | flag _ _ _ _ _ rest ih =>
    cases i with
    | zero => cases hrole
    | succ i => exact ih hrole

lemma controlCommandSpec_separator : controlCommandSpec "--" = none := by decide

/-- A command line that is let through. -/
lemma examine_eq_ok (h : examine args = .ok roles) :
    ∃ command words specification rest, args = command :: words ∧ roles = .command :: rest ∧
      controlCommandSpec command = some specification ∧ command ≠ "--" ∧
      Examines specification false words rest := by
  cases args with
  | nil => cases h
  | cons command words =>
    unfold examine at h
    dsimp only at h
    cases hspecification : controlCommandSpec command with
    | none =>
      rw [hspecification] at h
      cases h
    | some specification =>
      rw [hspecification] at h
      obtain ⟨rest, hrest, rfl⟩ := map_cons_eq_ok h
      refine ⟨command, words, specification, rest, rfl, rfl, hspecification, ?_,
        examines_of_ok hrest⟩
      rintro rfl
      exact absurd (controlCommandSpec_separator.symm.trans hspecification) nofun

lemma lt_takeWhile_of_examine (h : examine args = .ok roles) (hrole : roles[i]? = some role)
    (hoption : role.isOption = true) :
    i < (args.takeWhile fun argument => argument ≠ "--").length := by
  obtain ⟨command, words, specification, rest, rfl, rfl, -, hne, hexamines⟩ := examine_eq_ok h
  rw [takeWhile_cons_of_pos (by simpa using hne), length_cons]
  cases i with
  | zero => exact Nat.succ_pos _
  | succ i => exact Nat.succ_lt_succ (hexamines.lt_takeWhile nofun hrole hoption)

lemma value_next_of_examine (h : examine args = .ok roles) (hrole : roles[i]? = some (.option v)) :
    args[i + 1]? = some v := by
  obtain ⟨command, words, specification, rest, rfl, rfl, -, -, hexamines⟩ := examine_eq_ok h
  cases i with
  | zero => cases hrole
  | succ i => exact hexamines.value_next hrole

/-- A word before the first `--`. -/
lemma getElem?_of_lt_takeWhile {p : String → Bool} (h : i < (args.takeWhile p).length) :
    ∃ word, args[i]? = some word ∧ (args.takeWhile p)[i]? = some word ∧ p word = true := by
  obtain ⟨after, hafter⟩ := takeWhile_prefix (l := args) p
  have hget : (args.takeWhile p)[i]? = some (args.takeWhile p)[i] := List.getElem?_eq_getElem h
  have hsame : (args.takeWhile p ++ after)[i]? = (args.takeWhile p)[i]? :=
    List.getElem?_append_left h
  rw [hafter, hget] at hsame
  refine ⟨(args.takeWhile p)[i], hsame, hget, ?_⟩
  exact mem_takeWhile_imp (getElem_mem h)

lemma firstOccurrence_isSome (args : List String) (option : String) :
    (firstOccurrence args option).isSome = hasOption args option :=
  List.findIdx?_isSome

/-- Where an option is first found. -/
lemma getElem?_firstOccurrence (h : firstOccurrence args option = some i) :
    args[i]? = some option ∧
      ∀ j < i, j < (args.takeWhile fun argument => argument ≠ "--").length →
        args[j]? ≠ some option := by
  unfold firstOccurrence at h
  obtain ⟨hlt, hfound, hbefore⟩ := List.findIdx?_eq_some_iff_getElem.mp h
  obtain ⟨word, hword, hget, -⟩ := getElem?_of_lt_takeWhile hlt
  rw [List.getElem?_eq_getElem hlt] at hget
  cases hget
  refine ⟨hword.trans (congrArg some (of_decide_eq_true hfound)), fun j hj hlt' heq => ?_⟩
  obtain ⟨word, hword, hget, -⟩ := getElem?_of_lt_takeWhile hlt'
  obtain rfl := some.inj (heq.symm.trans hword)
  rw [List.getElem?_eq_getElem hlt'] at hget
  exact hbefore j hj (decide_eq_true (some.inj hget))

/-- The readers agree with the validator about an option exactly when they find it first where the
validator does. -/
lemma readersAgree_iff (h : examine args = .ok roles) (option : String) :
    ReadersAgree args roles option ↔ FirstIsOption args roles option := by
  constructor
  · rintro ⟨hhas, hvalue⟩ i hfirst
    have hfound : hasOption args option = true := by
      rw [← firstOccurrence_isSome, hfirst]
      rfl
    obtain ⟨j, role, hword, hrole, hoption⟩ := hhas hfound
    have hlt := lt_takeWhile_of_examine h hrole hoption
    obtain ⟨hi, hbefore⟩ := getElem?_firstOccurrence hfirst
    rcases Nat.lt_trichotomy i j with hij | rfl | hji
    · -- the word behind the first occurrence is returned as a value
      obtain ⟨value, hnext, -, hne⟩ :=
        getElem?_of_lt_takeWhile (Nat.lt_of_le_of_lt (Nat.succ_le_of_lt hij) hlt)
      have hreturned : optionValue args option = some value := by
        unfold optionValue
        have hposition : ((args.takeWhile fun argument => argument ≠ "--").findIdx?
            fun argument => argument = option) = some i := hfirst
        rw [hposition, bind_some, hnext]
        exact filter_some_pos hne
      obtain ⟨i', hi', hrole'⟩ := hvalue value hreturned
      obtain rfl := some.inj (hfirst.symm.trans hi')
      rcases hrole' with hrole' | hrole'
      · exact ⟨_, hrole', rfl⟩
      · exact ⟨_, hrole', rfl⟩
    · exact ⟨role, hrole, hoption⟩
    · exact absurd hword (hbefore j hji hlt)
  · intro hfirst
    constructor
    · intro hhas
      rw [← firstOccurrence_isSome] at hhas
      obtain ⟨i, hi⟩ := isSome_iff_exists.mp hhas
      obtain ⟨role, hrole, hoption⟩ := hfirst i hi
      exact ⟨i, role, (getElem?_firstOccurrence hi).1, hrole, hoption⟩
    · intro v hv
      unfold optionValue at hv
      rw [filter_eq_some_iff, bind_eq_some_iff] at hv
      obtain ⟨⟨i, hi, hnext⟩, -⟩ := hv
      obtain ⟨role, hrole, hoption⟩ := hfirst i hi
      refine ⟨i, hi, ?_⟩
      cases role with
      | option value =>
        obtain rfl := some.inj ((value_next_of_examine h hrole).symm.trans hnext)
        exact .inl hrole
      | flag => exact .inr hrole
      | command | value | dash | positional | separator | unexamined => exact absurd hoption nofun

/-! ## New tabs -/

/-- The commands whose words the parsers of new tabs read. -/
def newTabCommands : List String := ["new-session", "new", "new-window", "neww", "new-agent"]

/-- The options that the validator took, with their values. -/
def takenOptions (args : List String) (roles : List WordRole) : List (String × String) :=
  (args.zip roles).filterMap fun (word, role) =>
    match role with
    | .option value => some (word, value)
    | _ => none

/-- The words that the validator left unexamined. -/
def unexaminedWords (args : List String) (roles : List WordRole) : List String :=
  ((args.zip roles).filter fun (_, role) => role = .unexamined).map Prod.fst

/-- The value of the last `-n` that was taken, if any was. -/
def takenTitle (title : Option String) (taken : List (String × String)) : Option String :=
  taken.foldl (fun title (option, value) => if option = "-n" then some value else title) title

/-- The flags that the validator took. -/
def takenFlags (args : List String) (roles : List WordRole) : List String :=
  ((args.zip roles).filter fun (_, role) => role = .flag).map Prod.fst

def takenEnvironment (environment : List (String × String)) (taken : List (String × String)) :
    Except String (List (String × String)) :=
  taken.foldlM (fun environment (option, value) => environmentOption environment option value)
    environment

/-- The parsers of new tabs read the words as the validator does. -/
structure ParsersAgree (args : List String) (roles : List WordRole) : Prop where
  command : parseNewCommand args =
    some (takenTitle none (takenOptions args roles), (takenFlags args roles).contains "-d",
      unexaminedWords args roles)
  environment : parseTabEnvironment args = takenEnvironment [] (takenOptions args roles)

/-- The parsers of new tabs know every option that the validator lets through. -/
def NewTabSpec (specification : ControlCommandSpec) : Prop :=
  (∀ option ∈ specification.valueOptions, (option = "-n" ∨ option ∈ newCommandSkipped) ∧
    (option ∈ environmentOptions ∨ option ∈ environmentSkipped ∧ option ∉ environmentOptions)) ∧
    ∀ option ∈ specification.flagOptions, (option ≠ "-n" ∧ option ∉ newCommandSkipped) ∧
      option ∉ environmentOptions ∧ option ∉ environmentSkipped

instance (specification : ControlCommandSpec) : Decidable (NewTabSpec specification) :=
  inferInstanceAs (Decidable (_ ∧ _))

lemma newTabSpec {specification : ControlCommandSpec} {command : String}
    (hcommand : command ∈ newTabCommands)
    (hspecification : controlCommandSpec command = some specification) :
    NewTabSpec specification := by
  have hall : ∀ command ∈ newTabCommands,
      (controlCommandSpec command).all fun specification => NewTabSpec specification := by decide
  have hnew := hall command hcommand
  rw [hspecification] at hnew
  exact of_decide_eq_true hnew

/-- All the words that stop or divert the parsers of new tabs start with a dash. -/
lemma ne_of_not_dashed (hdash : startsWithDash argument = false)
    (hword : startsWithDash word = true) : argument ≠ word := by
  rintro rfl
  exact absurd (hdash.symm.trans hword) nofun

lemma newCommandSkipped_dashed : ∀ option ∈ newCommandSkipped, startsWithDash option = true := by
  decide

lemma unexaminedWords_cons (word : String) (role : WordRole) (words : List String)
    (roles : List WordRole) :
    unexaminedWords (word :: words) (role :: roles)
      = if role = .unexamined then word :: unexaminedWords words roles
        else unexaminedWords words roles := by
  unfold unexaminedWords
  rw [zip_cons_cons, filter_cons]
  by_cases h : role = .unexamined
  · rw [if_pos h, if_pos (decide_eq_true h), map_cons]
  · rw [if_neg h, if_neg (by simpa using h)]

lemma unexaminedWords_all (words : List String) :
    unexaminedWords words (words.map fun _ => .unexamined) = words := by
  induction words with
  | nil => rfl
  | cons word words ih => rw [map_cons, unexaminedWords_cons, if_pos rfl, ih]

lemma takenOptions_all (words : List String) :
    takenOptions words (words.map fun _ => .unexamined) = [] := by
  induction words with
  | nil => rfl
  | cons word words ih => exact ih

lemma takenFlags_all (words : List String) :
    takenFlags words (words.map fun _ => .unexamined) = [] := by
  induction words with
  | nil => rfl
  | cons word words ih => exact ih

/-- A word that does not start with a dash starts the child command. -/
lemma parseNewWords_child (hdash : startsWithDash argument = false) (title : Option String)
    (detached : Bool) (words : List String) :
    parseNewWords false title detached (argument :: words)
      = some (title, detached, argument :: words) := by
  have hne : ∀ word, startsWithDash word = true → argument ≠ word :=
    fun word => ne_of_not_dashed hdash
  have hskipped : newCommandSkipped.contains argument = false := by
    rw [← Bool.not_eq_true, contains_iff_mem]
    exact fun hmem => absurd (hdash.symm.trans (newCommandSkipped_dashed argument hmem)) nofun
  unfold parseNewWords
  rw [if_neg (hne "-n" (by decide)), if_neg (hne "-d" (by decide)), if_neg, hskipped,
    if_neg Bool.false_ne_true, if_neg (hne "--" (by decide)), hdash, if_neg Bool.false_ne_true]
  rintro (hA | hP | hE)
  · exact hne "-A" (by decide) hA
  · exact hne "-P" (by decide) hP
  · exact hne "-E" (by decide) hE

/-- A flag is passed over, and `-d` is kept in mind. -/
lemma parseNewWords_flag (hspecification : NewTabSpec specification)
    (hflag : argument ∈ specification.flagOptions) (hdash : startsWithDash argument = true)
    (hend : argument ≠ "--") (title : Option String) (detached : Bool) (words : List String) :
    parseNewWords false title detached (argument :: words)
      = parseNewWords false title (detached || argument = "-d") words := by
  obtain ⟨⟨hn, hskipped⟩, -⟩ := hspecification.2 argument hflag
  have hskipped : newCommandSkipped.contains argument = false := by
    rw [← Bool.not_eq_true, contains_iff_mem]
    exact hskipped
  conv_lhs => unfold parseNewWords
  rw [if_neg hn, hskipped, if_neg Bool.false_ne_true, if_neg hend, hdash, if_pos rfl]
  by_cases hd : argument = "-d"
  · rw [if_pos hd, decide_eq_true hd, Bool.or_true]
  · rw [if_neg hd, decide_eq_false hd, Bool.or_false, ite_self]

/-- The value of an option is passed over, and that of `-n` is kept in mind. -/
lemma parseNewWords_option (hspecification : NewTabSpec specification) {value : String}
    (hoption : argument ∈ specification.valueOptions) (title : Option String) (detached : Bool)
    (words : List String) :
    parseNewWords false title detached (argument :: value :: words)
      = parseNewWords true (if argument = "-n" then some value else title) detached
        (value :: words) := by
  conv_lhs => unfold parseNewWords
  rcases (hspecification.1 argument hoption).1 with rfl | hskipped
  · rfl
  · have hne : ∀ option ∈ newCommandSkipped, option ≠ "-n" ∧ option ≠ "-d" ∧
        ¬ (option = "-A" ∨ option = "-P" ∨ option = "-E") := by decide
    obtain ⟨hn, hd, hA⟩ := hne argument hskipped
    rw [if_neg hn, if_neg hd, if_neg hA, if_pos (contains_iff_mem.mpr hskipped), if_neg hn]

/-- `parse_new_command` goes through the words as the validator does, unless that passes over a
positional word. -/
lemma parseNewWords_agrees (hspecification : NewTabSpec specification)
    (h : Examines specification pending words roles) (hpending : pending = true → words ≠ [])
    (hpositional : WordRole.positional ∉ roles) (title : Option String) (detached : Bool) :
    parseNewWords pending title detached words =
      some (takenTitle title (takenOptions words roles),
        detached || (takenFlags words roles).contains "-d", unexaminedWords words roles) := by
  induction h generalizing title detached with
  | done pending =>
    cases pending with
    | true => exact absurd rfl (hpending rfl)
    | false =>
      show some (title, detached, []) = some (title, detached || false, [])
      rw [Bool.or_false]
  | value word rest ih =>
    exact ih nofun (fun hmem => hpositional (mem_cons_of_mem _ hmem)) title detached
  | separator words =>
    show some (title, detached, words) = some (takenTitle title
      (takenOptions words (words.map fun _ => .unexamined)),
      detached || (takenFlags words (words.map fun _ => .unexamined)).contains "-d",
      unexaminedWords words (words.map fun _ => .unexamined))
    rw [takenOptions_all, takenFlags_all, unexaminedWords_all, contains_nil, Bool.or_false]
    rfl
  | dash rest ih =>
    exact ih nofun (fun hmem => hpositional (mem_cons_of_mem _ hmem)) title detached
  | child argument words _ hdash =>
    rw [parseNewWords_child hdash]
    show some (title, detached, argument :: words) = some (takenTitle title
      (takenOptions words (words.map fun _ => .unexamined)),
      detached || (takenFlags words (words.map fun _ => .unexamined)).contains "-d",
      argument :: unexaminedWords words (words.map fun _ => .unexamined))
    rw [takenOptions_all, takenFlags_all, unexaminedWords_all, contains_nil, Bool.or_false]
    rfl
  | positional argument _ _ rest ih => exact absurd mem_cons_self hpositional
  | option argument value hdeclared _ _ _ rest ih =>
    rw [parseNewWords_option hspecification hdeclared]
    exact ih nofun (fun hmem => hpositional (mem_cons_of_mem _ hmem)) _ detached
  | flag argument hdeclared hdash hends _ rest ih =>
    rw [parseNewWords_flag hspecification hdeclared hdash hends.1,
      ih nofun (fun hmem => hpositional (mem_cons_of_mem _ hmem)) title]
    have hflags : ∀ (words : List String) (roles : List WordRole),
        (takenFlags (argument :: words) (.flag :: roles)).contains "-d"
          = (decide (argument = "-d") || (takenFlags words roles).contains "-d") := by
      intro words roles
      show ((argument :: takenFlags words roles).contains "-d") = _
      rw [contains_cons]
      congr 1
      exact Bool.beq_comm.trans rfl
    rw [hflags, ← Bool.or_assoc]
    rfl

lemma contains_eq_false {words : List String} (h : word ∉ words) : words.contains word = false := by
  rw [← Bool.not_eq_true, contains_iff_mem]
  exact h

/-- The value of an option that is not for the environment leaves it. -/
lemma environmentOption_other {option : String} (h : option ∉ environmentOptions)
    (environment : List (String × String)) (value : String) :
    environmentOption environment option value = .ok environment := by
  have hne : ∀ word ∈ environmentOptions, option ≠ word := by
    rintro word hword rfl
    exact h hword
  unfold environmentOption
  rw [if_neg, if_neg (hne "--proxy" (by decide)), if_neg (hne "--no-proxy" (by decide))]
  rintro (he | henv)
  · exact hne "-e" (by decide) he
  · exact hne "--env" (by decide) henv

lemma environmentWords_dashed :
    ∀ word ∈ environmentOptions ++ environmentSkipped, startsWithDash word = true := by decide

/-- `parse_tab_environment` stops at a word that does not start with a dash. -/
lemma parseEnvironmentWords_child (hdash : startsWithDash argument = false)
    (environment : List (String × String)) (words : List String) :
    parseEnvironmentWords false environment (argument :: words) = .ok environment := by
  have hnot : argument ∉ environmentOptions ++ environmentSkipped := fun hmem =>
    absurd (hdash.symm.trans (environmentWords_dashed argument hmem)) nofun
  rw [mem_append, not_or] at hnot
  unfold parseEnvironmentWords
  rw [contains_eq_false hnot.1, if_neg Bool.false_ne_true,
    if_neg (ne_of_not_dashed hdash (by decide)), contains_eq_false hnot.2, if_neg Bool.false_ne_true, hdash,
    if_neg Bool.false_ne_true]

/-- `parse_tab_environment` goes through the words as the validator does, unless that passes over a
positional word. -/
lemma parseEnvironmentWords_agrees (hspecification : NewTabSpec specification)
    (h : Examines specification pending words roles) (hpositional : WordRole.positional ∉ roles)
    (environment : List (String × String)) :
    parseEnvironmentWords pending environment words
      = takenEnvironment environment (takenOptions words roles) := by
  induction h generalizing environment with
  | done pending => cases pending <;> rfl
  | value word rest ih =>
    exact ih (fun hmem => hpositional (mem_cons_of_mem _ hmem)) environment
  | separator words =>
    show Except.ok environment = takenEnvironment environment
      (takenOptions words (words.map fun _ => .unexamined))
    rw [takenOptions_all]
    rfl
  | dash rest ih =>
    exact ih (fun hmem => hpositional (mem_cons_of_mem _ hmem)) environment
  | child argument words _ hdash =>
    rw [parseEnvironmentWords_child hdash]
    show Except.ok environment = takenEnvironment environment
      (takenOptions words (words.map fun _ => .unexamined))
    rw [takenOptions_all]
    rfl
  | positional argument _ _ rest ih => exact absurd mem_cons_self hpositional
  | @option words roles argument value hdeclared _ hends _ rest ih =>
    have htaken : takenEnvironment environment
        (takenOptions (argument :: value :: words) (.option value :: roles))
        = (environmentOption environment argument value).bind fun environment =>
          takenEnvironment environment (takenOptions (value :: words) roles) := rfl
    have ih := fun environment =>
      ih (fun hmem => hpositional (mem_cons_of_mem _ hmem)) environment
    rw [htaken]
    conv_lhs => unfold parseEnvironmentWords
    rcases (hspecification.1 argument hdeclared).2 with hused | ⟨hskipped, hother⟩
    · rw [if_pos (contains_iff_mem.mpr hused)]
      dsimp only [List.head?_cons]
      cases environmentOption environment argument value with
      | error error => rfl
      | ok environment => exact ih environment
    · rw [contains_eq_false hother, if_neg Bool.false_ne_true, if_neg hends.1,
        if_pos (contains_iff_mem.mpr hskipped), environmentOption_other hother]
      exact ih environment
  | flag argument hdeclared hdash hends _ rest ih =>
    obtain ⟨-, hused, hskipped⟩ := hspecification.2 argument hdeclared
    conv_lhs => unfold parseEnvironmentWords
    rw [contains_eq_false hused, if_neg Bool.false_ne_true, if_neg hends.1,
      contains_eq_false hskipped, if_neg Bool.false_ne_true, hdash, if_pos rfl]
    exact ih (fun hmem => hpositional (mem_cons_of_mem _ hmem)) environment

lemma length_unexaminedWords_le (words : List String) (roles : List WordRole) :
    (unexaminedWords words roles).length ≤ words.length := by
  unfold unexaminedWords
  rw [length_map]
  refine Nat.le_trans (length_filter_le _ _) ?_
  rw [length_zip]
  exact Nat.min_le_left _ _

/-- A positional word that the validator passes over is part of the child command for
`parse_new_command`. -/
lemma length_child_of_positional (hspecification : NewTabSpec specification)
    (h : Examines specification pending words roles) (hpositional : WordRole.positional ∈ roles)
    (title : Option String) (detached : Bool) {title' : Option String} {detached' : Bool}
    {child : List String}
    (hparsed : parseNewWords pending title detached words = some (title', detached', child)) :
    (unexaminedWords words roles).length < child.length := by
  have hunexamined : ∀ words : List String,
      WordRole.positional ∉ words.map fun _ => WordRole.unexamined := by
    intro words hmem
    obtain ⟨word, -, hword⟩ := mem_map.mp hmem
    cases hword
  have htail : ∀ {role : WordRole} {roles : List WordRole},
      WordRole.positional ∈ role :: roles → role ≠ .positional → WordRole.positional ∈ roles := by
    intro role roles hmem hne
    rcases mem_cons.mp hmem with heq | hmem
    · exact absurd heq.symm hne
    · exact hmem
  induction h generalizing title detached with
  | done pending => exact absurd hpositional not_mem_nil
  | value word rest ih => exact ih (htail hpositional nofun) title detached hparsed
  | separator words => exact absurd (htail hpositional nofun) (hunexamined words)
  | dash rest ih => exact ih (htail hpositional nofun) title detached hparsed
  | child argument words _ _ => exact absurd (htail hpositional nofun) (hunexamined words)
  | @positional words roles argument _ hdash rest ih =>
    rw [parseNewWords_child hdash] at hparsed
    obtain ⟨-, -, rfl⟩ := hparsed
    exact Nat.lt_succ_of_le (length_unexaminedWords_le words roles)
  | option argument value hdeclared _ _ _ rest ih =>
    rw [parseNewWords_option hspecification hdeclared] at hparsed
    exact ih (htail hpositional nofun) _ detached hparsed
  | flag argument hdeclared hdash hends _ rest ih =>
    rw [parseNewWords_flag hspecification hdeclared hdash hends.1] at hparsed
    exact ih (htail hpositional nofun) title _ hparsed

/-- The parsers of new tabs agree with the validator exactly when that does not pass over a
positional word. -/
lemma parsersAgree_iff (h : examine args = .ok roles)
    (hnew : ∃ command ∈ newTabCommands, args.head? = some command) :
    ParsersAgree args roles ↔ WordRole.positional ∉ roles := by
  obtain ⟨command, words, specification, rest, rfl, rfl, hspec, -, hexamines⟩ := examine_eq_ok h
  obtain ⟨found, hfound, hhead⟩ := hnew
  cases hhead
  have hspecification := newTabSpec hfound hspec
  constructor
  · rintro ⟨hcommand, -⟩ hpositional
    rcases mem_cons.mp hpositional with heq | hpositional
    · cases heq
    · exact Nat.lt_irrefl _
        (length_child_of_positional hspecification hexamines hpositional none false hcommand)
  · intro hpositional
    have hpositional : WordRole.positional ∉ rest :=
      fun hmem => hpositional (mem_cons_of_mem _ hmem)
    constructor
    · exact parseNewWords_agrees hspecification hexamines nofun hpositional none false
    · exact parseEnvironmentWords_agrees hspecification hexamines hpositional []

end

/-! ## All readers -/

/-- The readers of a command line that the validator lets through agree with it on every option of
its command and, for a new tab, on the words that the tab is made of. -/
structure AllAgree (args : List String) (roles : List WordRole) : Prop where
  readers : ∀ command specification, args.head? = some command →
    controlCommandSpec command = some specification →
      ∀ option ∈ specification.valueOptions ++ specification.flagOptions,
        ReadersAgree args roles option
  parsers : (∃ command ∈ newTabCommands, args.head? = some command) → ParsersAgree args roles

/-- For every command line that is let through. All readers agree with the validator exactly when
every option of the command is spelled first where the validator takes it for the option, and no
positional word of a new tab is passed over. -/
theorem allAgree_iff (args : List String) (h : validateControlCommand args = .ok ()) :
    ∃ roles, examine args = .ok roles ∧
      (AllAgree args roles ↔
        (∀ command specification, args.head? = some command →
          controlCommandSpec command = some specification →
            ∀ option ∈ specification.valueOptions ++ specification.flagOptions,
              FirstIsOption args roles option) ∧
        ((∃ command ∈ newTabCommands, args.head? = some command) →
          WordRole.positional ∉ roles)) := by
  unfold validateControlCommand at h
  cases hexamine : examine args with
  | error error =>
    rw [hexamine] at h
    cases h
  | ok roles =>
    refine ⟨roles, rfl, ?_⟩
    constructor
    · rintro ⟨hreaders, hparsers⟩
      refine ⟨fun command specification hhead hspec option hoption => ?_, fun hnew => ?_⟩
      · exact (readersAgree_iff hexamine option).mp
          (hreaders command specification hhead hspec option hoption)
      · exact (parsersAgree_iff hexamine hnew).mp (hparsers hnew)
    · rintro ⟨hfirst, hpositional⟩
      refine ⟨fun command specification hhead hspec option hoption => ?_, fun hnew => ?_⟩
      · exact (readersAgree_iff hexamine option).mpr
          (hfirst command specification hhead hspec option hoption)
      · exact (parsersAgree_iff hexamine hnew).mpr (hpositional hnew)

theorem allAgree_iff_titled :
    ∃ roles, examine ["new-window", "-n", "build", "make"] = .ok roles ∧
      AllAgree ["new-window", "-n", "build", "make"] roles := by
  obtain ⟨roles, hexamine, hiff⟩ := allAgree_iff ["new-window", "-n", "build", "make"] (by decide)
  have hroles : examine ["new-window", "-n", "build", "make"]
      = .ok [.command, .option "build", .value, .unexamined] := by decide
  obtain rfl := Except.ok.inj (hroles.symm.trans hexamine)
  refine ⟨_, hexamine, hiff.mpr ⟨fun command specification hhead hspec => ?_, fun _ => by decide⟩⟩
  cases hhead
  have hall : (controlCommandSpec "new-window").all (fun specification =>
      ∀ option ∈ specification.valueOptions ++ specification.flagOptions,
        FirstIsOption ["new-window", "-n", "build", "make"]
          [.command, .option "build", .value, .unexamined] option) = true := by decide
  rw [hspec] at hall
  exact of_decide_eq_true hall

/-- The target of a tab is read from the command that is to run in it. -/
theorem child_read_as_target :
    validateControlCommand ["new-window", "ssh", "-t", "host"] = .ok () ∧
      ¬ ∃ roles, examine ["new-window", "ssh", "-t", "host"] = .ok roles ∧
        AllAgree ["new-window", "ssh", "-t", "host"] roles := by
  refine ⟨by decide, ?_⟩
  rintro ⟨roles, hexamine, hagree⟩
  have hroles : examine ["new-window", "ssh", "-t", "host"]
      = .ok [.command, .unexamined, .unexamined, .unexamined] := by decide
  obtain rfl := Except.ok.inj (hroles.symm.trans hexamine)
  have hspec : (controlCommandSpec "new-window").any
      (fun specification => specification.valueOptions.contains "-t") = true := by decide
  obtain ⟨specification, hspec, htarget⟩ := (any_eq_true _ _).mp hspec
  have hdeclared := mem_append_left specification.flagOptions
    (contains_iff_mem.mp htarget)
  obtain ⟨i, hfirst, hrole⟩ :=
    (hagree.readers "new-window" specification rfl hspec "-t" hdeclared).value "host" (by decide)
  have hsecond : firstOccurrence ["new-window", "ssh", "-t", "host"] "-t" = some 2 := by decide
  obtain rfl := some.inj (hsecond.symm.trans hfirst)
  rcases hrole with hrole | hrole
  · exact absurd hrole (by decide)
  · exact absurd hrole (by decide)

end Agenterm
