import Roofline.Configuration.Keys

/-!
# Options on the command line

An argument that begins with a dash is an option: it sets a key to a value or toggles a boolean
key.  The other arguments are returned.  An option is split at its equals signs, which loses an
empty value and takes a value with an equals sign apart.

Main results:

- Theorem {lit}`parseArgs_ok`: what is returned are the arguments that are no options.
- Theorem {lit}`holdsBooleans_parseArgs`: boolean keys only get boolean values.
- Theorem {lit}`setsParsed_iff`: exactly the values that survive the splitting are set.
- Theorem {lit}`toggles_option`: an option without a value toggles a boolean key.
- Theorem {lit}`parseCommandLine_sets_iff`: options behind any other arguments.
-/

namespace Roofline
namespace Configurations

variable {Key Double Object : Type} [DecidableEq Key]
variable (library : JavaLibrary Double Object)
variable (repository : ReflectionRepository Key Double Object)
variable (parents : List (Configuration Key Double Object))

/-! ## The loop over the arguments -/

/-- A double quote at the start and one at the end are removed. -/
def unquote (rawArg : List Char) : List Char :=
  let arg := if rawArg.head? = some '"' then rawArg.tail else rawArg
  if arg.getLast? = some '"' then arg.dropLast else arg

/-- {lit}`configuration.set(boolKey, !configuration.get(boolKey))`. -/
def toggle (key : Key) (configuration : Configuration Key Double Object) :
    MethodResult (Configuration Key Double Object) Unit :=
  match getUntyped repository.keys (configuration :: parents) key with
  | some (.boolean value) =>
      setUntyped library repository.keys key (some (.boolean (!value))) configuration
  | some _ => (.error .classCastException, configuration)
  | none => (.error .nullPointerException, configuration)

/-- The branch for an argument that begins with a dash. -/
def handleOption (arg : List Char) (configuration : Configuration Key Double Object) :
    MethodResult (Configuration Key Double Object) Unit :=
  match Strings.split '=' arg.tail with
  | [] => (.error .indexOutOfBoundsException, configuration)
  | name :: values =>
      match repository.getConfigurationKeyMap.lookup name with
      | none =>
          (.error (.error ("could not find configuration key named " ++ String.ofList arg.tail ++
            ". Available keys:\n" ++
              String.intercalate "\n" (repository.keySet.map String.ofList))), configuration)
      | some key =>
          match values with
          | [] =>
              if (repository.keys key).valueType = .boolean then
                toggle library repository parents key configuration
              else
                (.error (.error ("key " ++ String.ofList (repository.keys key).key ++ " of type " ++
                  (repository.keys key).valueType.getName ++
                    " is not a boolean, which could be toggled")), configuration)
          | [value] => parseAndSet library repository.keys key value configuration
          | _ =>
              (.error (.error ("Expected configuration definition in the format of " ++
                "-<key>=<value>, got " ++ String.ofList arg)), configuration)

/-- The loop of {lit}`parseCommandLine`. -/
def parseArgs (unhandledArgs : List (List Char)) :
    List (List Char) → Configuration Key Double Object →
      MethodResult (Configuration Key Double Object) (List (List Char))
  | [], configuration => (.ok unhandledArgs, configuration)
  | rawArg :: args, configuration =>
      if (unquote rawArg).head? = some '-' then
        match handleOption library repository parents (unquote rawArg) configuration with
        | (.ok (), changed) => parseArgs unhandledArgs args changed
        | (.error exception, changed) => (.error exception, changed)
      else parseArgs (unhandledArgs ++ [unquote rawArg]) args configuration

/-- {lit}`parseCommandLine`: the arguments that are no options are returned. -/
def parseCommandLine (args : List (List Char)) (configuration : Configuration Key Double Object) :
    MethodResult (Configuration Key Double Object) (List (List Char)) :=
  parseArgs library repository parents [] args configuration

/-- An argument that is returned. -/
def isUnhandled (arg : List Char) : Bool :=
  decide (arg.head? ≠ some '-')

variable {library repository parents}

/-- What is returned are the arguments that are no options, in their order. -/
theorem parseArgs_ok {unhandledArgs args result : List (List Char)}
    {configuration changed : Configuration Key Double Object}
    (h : parseArgs library repository parents unhandledArgs args configuration =
      (.ok result, changed)) :
    result = unhandledArgs ++ (args.map unquote).filter isUnhandled := by
  induction args generalizing unhandledArgs configuration with
  | nil =>
      cases h
      simp
  | cons rawArg args ih =>
      simp only [parseArgs] at h
      split at h
      next hoption =>
        split at h
        next =>
          rw [ih h]
          simp [isUnhandled, hoption]
        next => cases h
      next hother =>
        rw [ih h]
        simp [isUnhandled, hother]

/-- A loop over arguments goes on where the loop over the first of them has ended. -/
theorem parseArgs_append {unhandledArgs front back result : List (List Char)}
    {configuration changed : Configuration Key Double Object}
    (h : parseArgs library repository parents unhandledArgs front configuration =
      (.ok result, changed)) :
    parseArgs library repository parents unhandledArgs (front ++ back) configuration =
      parseArgs library repository parents result back changed := by
  induction front generalizing unhandledArgs configuration with
  | nil =>
      cases h
      rfl
  | cons rawArg front ih =>
      simp only [parseArgs] at h
      rw [List.cons_append, parseArgs]
      split at h
      next hoption =>
        rw [if_pos hoption]
        split at h
        next hhandled => exact ih h
        next => cases h
      next hother =>
        rw [if_neg hother]
        exact ih h

/-! ## Booleans -/

/-- A boolean key is never mapped to null or to an object of another class. -/
def HoldsBooleans (repository : ReflectionRepository Key Double Object)
    (configuration : Configuration Key Double Object) : Prop :=
  ∀ key value, (repository.keys key).valueType = .boolean →
    configuration.data.lookup key = some value → ∃ flag, value = some (.boolean flag)

/-- An empty configuration maps no key. -/
theorem holdsBooleans_empty : HoldsBooleans repository ⟨∅, []⟩ := by
  intro key value _ hlookup
  simp at hlookup

/-- Setting a boolean key to a boolean keeps the property. -/
theorem HoldsBooleans.set {configuration : Configuration Key Double Object}
    (h : HoldsBooleans repository configuration) {key : Key} {value : Option (Value Double Object)}
    (hvalue : (repository.keys key).valueType = .boolean → ∃ flag, value = some (.boolean flag)) :
    HoldsBooleans repository (configuration.set key value) := by
  intro other found hboolean hlookup
  rw [Savepoints.UndoLog.lookup_set_apply] at hlookup
  by_cases hkey : other = key
  · subst hkey
    rw [if_pos rfl, Option.some.injEq] at hlookup
    rw [← hlookup]
    exact hvalue hboolean
  · rw [if_neg hkey] at hlookup
    exact h other found hboolean hlookup

/-- Parsing and setting a value keeps it. -/
theorem HoldsBooleans.parseAndSet {configuration : Configuration Key Double Object}
    (h : HoldsBooleans repository configuration) (key : Key) (text : List Char) :
    HoldsBooleans repository
      (parseAndSet library repository.keys key text configuration).2 := by
  rw [parseAndSet_eq]
  cases hparse : parse library (repository.keys key).valueType text with
  | error exception => exact h
  | ok value =>
      apply h.set
      intro hboolean
      rw [hboolean] at hparse
      cases hparse
      exact ⟨_, rfl⟩

/-- Toggling a key keeps it. -/
theorem HoldsBooleans.toggle {configuration : Configuration Key Double Object}
    (h : HoldsBooleans repository configuration) (key : Key) :
    HoldsBooleans repository (toggle library repository parents key configuration).2 := by
  unfold Configurations.toggle
  split
  next flag _ =>
    unfold setUntyped
    split
    · exact h.set fun _ => ⟨!flag, rfl⟩
    · exact h
  next => exact h
  next => exact h

/-- Handling an option keeps it. -/
theorem HoldsBooleans.handleOption {configuration : Configuration Key Double Object}
    (h : HoldsBooleans repository configuration) (arg : List Char) :
    HoldsBooleans repository
      (handleOption library repository parents arg configuration).2 := by
  unfold Configurations.handleOption
  split
  next => exact h
  next name values _ =>
    split
    next => exact h
    next key _ =>
      split
      next =>
        split
        next => exact h.toggle key
        next => exact h
      next value _ => exact h.parseAndSet key value
      next => exact h

/-- Boolean keys only get boolean values. -/
theorem holdsBooleans_parseArgs {configuration : Configuration Key Double Object}
    (h : HoldsBooleans repository configuration) (unhandledArgs args : List (List Char)) :
    HoldsBooleans repository
      (parseArgs library repository parents unhandledArgs args configuration).2 := by
  induction args generalizing unhandledArgs configuration with
  | nil => exact h
  | cons rawArg args ih =>
      rw [parseArgs]
      split
      next =>
        have hhandled : HoldsBooleans repository
            (Configurations.handleOption library repository parents (unquote rawArg)
              configuration).2 :=
          h.handleOption (unquote rawArg)
        split
        next heq =>
          rw [heq] at hhandled
          exact ih hhandled _
        next heq =>
          rw [heq] at hhandled
          exact hhandled
      next => exact ih h _

/-- A known boolean key has a value. -/
theorem getUntyped_boolean {configurations : List (Configuration Key Double Object)}
    (h : ∀ configuration ∈ configurations, HoldsBooleans repository configuration) {key : Key}
    (hkey : key ∈ repository.configurationKeys)
    (hboolean : (repository.keys key).valueType = .boolean) :
    ∃ flag, getUntyped repository.keys configurations key = some (.boolean flag) := by
  induction configurations with
  | nil => exact repository.isBoolean key hkey hboolean
  | cons configuration configurations ih =>
      rw [List.forall_mem_cons] at h
      cases hlookup : configuration.data.lookup key with
      | none =>
          obtain ⟨flag, hflag⟩ := ih h.2
          exact ⟨flag, by simp [getUntyped, hlookup, hflag]⟩
      | some value =>
          obtain ⟨flag, hflag⟩ := h.1 key value hboolean hlookup
          exact ⟨flag, by simp [getUntyped, hlookup, hflag]⟩

/-! ## One option -/

/-- An option without a double quote at its end is left as it is. -/
theorem unquote_option {text : List Char} (h : text.getLast? ≠ some '"') :
    unquote ('-' :: text) = '-' :: text := by
  have hlast : ('-' :: text).getLast? ≠ some '"' := by
    cases text with
    | nil => decide
    | cons c text => rwa [List.getLast?_cons_cons]
  simp [unquote, hlast]

variable (library repository parents) in
/-- A single option only changes the configuration. -/
theorem parseArgs_option {rawArg : List Char} (h : (unquote rawArg).head? = some '-')
    (unhandledArgs : List (List Char)) (configuration : Configuration Key Double Object) :
    (parseArgs library repository parents unhandledArgs [rawArg] configuration).1.isOk =
        (handleOption library repository parents (unquote rawArg) configuration).1.isOk ∧
      (parseArgs library repository parents unhandledArgs [rawArg] configuration).2 =
        (handleOption library repository parents (unquote rawArg) configuration).2 := by
  simp only [parseArgs, if_pos h]
  split
  next heq =>
    rw [heq]
    exact ⟨rfl, rfl⟩
  next heq =>
    rw [heq]
    exact ⟨rfl, rfl⟩

/-- An option without a value toggles a boolean key and is an error for any other. -/
theorem handleOption_name {key : Key} (hkey : key ∈ repository.configurationKeys)
    (configuration : Configuration Key Double Object) :
    handleOption library repository parents ('-' :: (repository.keys key).key) configuration =
      if (repository.keys key).valueType = .boolean then
        toggle library repository parents key configuration
      else
        (.error (.error ("key " ++ String.ofList (repository.keys key).key ++ " of type " ++
          (repository.keys key).valueType.getName ++
            " is not a boolean, which could be toggled")), configuration) := by
  have hsplit := Strings.split_of_not_mem (repository.isName key hkey).equals
  simp only [handleOption, List.tail_cons, hsplit, repository.lookup_getConfigurationKeyMap hkey]

section Assignments

variable {key : Key} {value : List Char} {configuration : Configuration Key Double Object}

omit [DecidableEq Key] in
/-- How an assignment to a known key is split at the equals signs. -/
theorem split_assignment (hkey : key ∈ repository.configurationKeys) :
    Strings.split '=' ((repository.keys key).key ++ '=' :: value) =
      (repository.keys key).key ::
        if value.rdropWhile (· == '=') = [] then []
        else (value.rdropWhile (· == '=')).splitOn '=' := by
  have hname := repository.isName key hkey
  rw [Strings.split_append_cons hname.equals hname.nonempty, Strings.rdropWhile_splitOn]

/-- Without a value the option is one that toggles. -/
theorem handleOption_empty (hkey : key ∈ repository.configurationKeys)
    (h : value.rdropWhile (· == '=') = []) :
    handleOption library repository parents ('-' :: ((repository.keys key).key ++ '=' :: value))
        configuration =
      handleOption library repository parents ('-' :: (repository.keys key).key) configuration := by
  rw [handleOption_name hkey]
  simp only [handleOption, List.tail_cons, split_assignment hkey, if_pos h,
    repository.lookup_getConfigurationKeyMap hkey]

/-- An assignment whose value has an equals sign inside is an error. -/
theorem handleOption_separated (hkey : key ∈ repository.configurationKeys)
    (h : '=' ∈ value.rdropWhile (· == '=')) :
    handleOption library repository parents ('-' :: ((repository.keys key).key ++ '=' :: value))
        configuration =
      (.error (.error ("Expected configuration definition in the format of -<key>=<value>, got " ++
        String.ofList ('-' :: ((repository.keys key).key ++ '=' :: value)))), configuration) := by
  have hne : value.rdropWhile (· == '=') ≠ [] := List.ne_nil_of_mem h
  obtain ⟨front, back, htext⟩ := List.append_of_mem h
  obtain ⟨first, others, hfront⟩ := List.exists_cons_of_ne_nil (List.splitOn_ne_nil '=' front)
  obtain ⟨second, rest, hback⟩ := List.exists_cons_of_ne_nil (List.splitOn_ne_nil '=' back)
  have hparts : ∃ second rest,
      (value.rdropWhile (· == '=')).splitOn '=' = first :: second :: rest := by
    rw [htext, List.splitOn_append_cons_self, hfront, hback]
    cases others with
    | nil => exact ⟨second, rest, rfl⟩
    | cons other others => exact ⟨other, others ++ second :: rest, rfl⟩
  obtain ⟨second, rest, hparts⟩ := hparts
  simp only [handleOption, List.tail_cons, split_assignment hkey, if_neg hne,
    repository.lookup_getConfigurationKeyMap hkey, hparts]
  rfl

/-- Any other assignment parses and sets the value, without equals signs at its end. -/
theorem handleOption_value (hkey : key ∈ repository.configurationKeys)
    (hne : value.rdropWhile (· == '=') ≠ []) (h : '=' ∉ value.rdropWhile (· == '=')) :
    handleOption library repository parents ('-' :: ((repository.keys key).key ++ '=' :: value))
        configuration =
      parseAndSet library repository.keys key (value.rdropWhile (· == '=')) configuration := by
  simp only [handleOption, List.tail_cons, split_assignment hkey, if_neg hne,
    repository.lookup_getConfigurationKeyMap hkey, List.splitOn_eq_singleton h]

end Assignments

/-! ## What an option does -/

section Options

variable {α : Type}

/-- The key has the value, and all other keys are as before. -/
structure Sets (repository : ReflectionRepository Key Double Object)
    (parents : List (Configuration Key Double Object)) (key : Key) (value : Value Double Object)
    (before after : Configuration Key Double Object) : Prop where
  value : getUntyped repository.keys (after :: parents) key = some value
  others : ∀ other, other ≠ key →
    getUntyped repository.keys (after :: parents) other =
      getUntyped repository.keys (before :: parents) other

/-- The call has thrown an exception and changed nothing. -/
def Rejects (before : Configuration Key Double Object)
    (result : MethodResult (Configuration Key Double Object) α) : Prop :=
  result.1.isOk = false ∧ result.2 = before

/-- The key is set to what its type reads from the value, or the value is rejected. -/
def SetsParsed (library : JavaLibrary Double Object)
    (repository : ReflectionRepository Key Double Object)
    (parents : List (Configuration Key Double Object)) (key : Key) (value : List Char)
    (before : Configuration Key Double Object)
    (result : MethodResult (Configuration Key Double Object) α) : Prop :=
  match parse library (repository.keys key).valueType value with
  | .ok parsed => result.1.isOk = true ∧ Sets repository parents key parsed before result.2
  | .error _ => Rejects before result

/-- A boolean key is set to its negation; with any other key the option is rejected. -/
def Toggles (repository : ReflectionRepository Key Double Object)
    (parents : List (Configuration Key Double Object)) (key : Key)
    (before : Configuration Key Double Object)
    (result : MethodResult (Configuration Key Double Object) α) : Prop :=
  if (repository.keys key).valueType = .boolean then
    ∃ flag, getUntyped repository.keys (before :: parents) key = some (.boolean flag) ∧
      result.1.isOk = true ∧ Sets repository parents key (.boolean (!flag)) before result.2
  else Rejects before result

/-- The value is read as without the equals signs at its end, and it has no others; or it could
not be read anyway, or the key happens to be toggled to what is read. -/
def SurvivesSplit (library : JavaLibrary Double Object)
    (repository : ReflectionRepository Key Double Object)
    (parents : List (Configuration Key Double Object)) (key : Key) (value : List Char)
    (configuration : Configuration Key Double Object) : Prop :=
  let text := value.rdropWhile (· == '=')
  if text = [] then
    if (repository.keys key).valueType = .boolean then
      getUntyped repository.keys (configuration :: parents) key = some (.boolean true)
    else (parse library (repository.keys key).valueType value).isOk = false
  else if '=' ∈ text then (parse library (repository.keys key).valueType value).isOk = false
  else
    (parse library (repository.keys key).valueType text).toOption =
      (parse library (repository.keys key).valueType value).toOption

variable {key : Key} {configuration : Configuration Key Double Object}

/-- Setting a key sets it and nothing else. -/
theorem sets_set (value : Value Double Object) :
    Sets repository parents key value configuration (configuration.set key (some value)) where
  value := by rw [getUntyped_set, if_pos rfl]
  others := fun other hother => by rw [getUntyped_set, if_neg hother]

/-- A value is set exactly if it is the one that was read. -/
theorem sets_set_iff {value read : Value Double Object} :
    Sets repository parents key value configuration (configuration.set key (some read)) ↔
      read = value := by
  constructor
  · intro hsets
    have hvalue := hsets.value
    rw [getUntyped_set, if_pos rfl] at hvalue
    exact Option.some_inj.mp hvalue
  · rintro rfl
    exact sets_set read

/-- An option that throws is right exactly if the value cannot be parsed. -/
theorem setsParsed_error {exception : Throwable} {value : List Char} :
    SetsParsed library repository parents key value configuration
        ((.error exception, configuration) :
          MethodResult (Configuration Key Double Object) α) ↔
      (parse library (repository.keys key).valueType value).isOk = false := by
  unfold SetsParsed
  cases parse library (repository.keys key).valueType value with
  | ok parsed => simp [Except.isOk, Except.toBool]
  | error _ => simp [Rejects, Except.isOk, Except.toBool]

/-- A boolean key is set to the negation of what it was. -/
theorem toggle_eq {flag : Bool}
    (h : getUntyped repository.keys (configuration :: parents) key = some (.boolean flag))
    (hboolean : (repository.keys key).valueType = .boolean) :
    toggle library repository parents key configuration =
      (.ok (), configuration.set key (some (.boolean (!flag)))) := by
  simp [toggle, h, setUntyped, hboolean, isInstance]

/-- An option without a value toggles a boolean key. -/
theorem toggles_option (hkey : key ∈ repository.configurationKeys)
    (hbooleans : ∀ holder ∈ configuration :: parents, HoldsBooleans repository holder) :
    Toggles repository parents key configuration
      (handleOption library repository parents ('-' :: (repository.keys key).key)
        configuration) := by
  rw [handleOption_name hkey]
  unfold Toggles
  by_cases hboolean : (repository.keys key).valueType = .boolean
  · obtain ⟨flag, hflag⟩ := getUntyped_boolean hbooleans hkey hboolean
    rw [if_pos hboolean, if_pos hboolean, toggle_eq hflag hboolean]
    exact ⟨flag, hflag, rfl, sets_set _⟩
  · rw [if_neg hboolean, if_neg hboolean]
    exact ⟨rfl, rfl⟩

/-- Equals signs are not a truth value. -/
theorem parseBoolean_equals {value : List Char} (h : value.rdropWhile (· == '=') = []) :
    parseBoolean value = false := by
  rw [List.rdropWhile_eq_nil_iff] at h
  cases value with
  | nil => rfl
  | cons c value =>
      have hc : c = '=' := by simpa using h c (List.mem_cons_self ..)
      subst hc
      simp [parseBoolean]

/-- Exactly the values that survive the splitting are set. -/
theorem setsParsed_iff (hkey : key ∈ repository.configurationKeys)
    (hbooleans : ∀ holder ∈ configuration :: parents, HoldsBooleans repository holder)
    (value : List Char) :
    SetsParsed library repository parents key value configuration
        (handleOption library repository parents
          ('-' :: ((repository.keys key).key ++ '=' :: value)) configuration) ↔
      SurvivesSplit library repository parents key value configuration := by
  unfold SurvivesSplit
  dsimp only
  split
  next hempty =>
    rw [handleOption_empty hkey hempty, handleOption_name hkey]
    split
    next hboolean =>
      obtain ⟨flag, hflag⟩ := getUntyped_boolean hbooleans hkey hboolean
      have hparse : parse library (repository.keys key).valueType value =
          .ok (.boolean false) := by
        rw [hboolean, parse, parseBoolean_equals hempty]
      rw [toggle_eq hflag hboolean, hflag]
      simp only [SetsParsed, hparse, sets_set_iff]
      cases flag with
      | false => simp
      | true => simp [Except.isOk, Except.toBool]
    next => exact setsParsed_error
  next hne =>
    split
    next hmem =>
      rw [handleOption_separated hkey hmem]
      exact setsParsed_error
    next hmem =>
      rw [handleOption_value hkey hne hmem, parseAndSet_eq]
      cases htext : parse library (repository.keys key).valueType
          (value.rdropWhile (· == '=')) with
      | error _ =>
          rw [setsParsed_error]
          cases parse library (repository.keys key).valueType value with
          | error _ => simp [Except.isOk, Except.toBool, Except.toOption]
          | ok _ => simp [Except.isOk, Except.toBool, Except.toOption]
      | ok read =>
          unfold SetsParsed
          cases parse library (repository.keys key).valueType value with
          | error _ => simp [Rejects, Except.isOk, Except.toBool, Except.toOption]
          | ok parsed =>
              simp only [Except.toOption, Option.some.injEq, sets_set_iff]
              exact ⟨And.right, fun heq => ⟨rfl, heq⟩⟩

end Options

/-! ## The command line -/

/-- What the result of an option says depends on the configuration and on whether it threw. -/
theorem setsParsed_congr {α β : Type} {key : Key} {value : List Char}
    {before : Configuration Key Double Object}
    {result : MethodResult (Configuration Key Double Object) α}
    {other : MethodResult (Configuration Key Double Object) β}
    (hok : result.1.isOk = other.1.isOk) (hconfiguration : result.2 = other.2) :
    SetsParsed library repository parents key value before result ↔
      SetsParsed library repository parents key value before other := by
  simp only [SetsParsed, Rejects, hok, hconfiguration]

/-- The same holds of toggling. -/
theorem toggles_congr {α β : Type} {key : Key} {before : Configuration Key Double Object}
    {result : MethodResult (Configuration Key Double Object) α}
    {other : MethodResult (Configuration Key Double Object) β}
    (hok : result.1.isOk = other.1.isOk) (hconfiguration : result.2 = other.2) :
    Toggles repository parents key before result ↔
      Toggles repository parents key before other := by
  simp only [Toggles, Rejects, hok, hconfiguration]

section Options

variable {key : Key} {configuration : Configuration Key Double Object}

/-- The loop toggles a boolean key that is given without a value. -/
theorem toggles_parseArgs (hkey : key ∈ repository.configurationKeys)
    (hbooleans : ∀ holder ∈ configuration :: parents, HoldsBooleans repository holder)
    (unhandledArgs : List (List Char)) :
    Toggles repository parents key configuration
      (parseArgs library repository parents unhandledArgs ['-' :: (repository.keys key).key]
        configuration) := by
  have hunquote := unquote_option (repository.isName key hkey).quote
  have hdash : (unquote ('-' :: (repository.keys key).key)).head? = some '-' := by
    rw [hunquote, List.head?_cons]
  have hoption := parseArgs_option library repository parents hdash unhandledArgs configuration
  rw [hunquote] at hoption
  rw [toggles_congr hoption.1 hoption.2]
  exact toggles_option hkey hbooleans

/-- When the loop sets a key to the value that is given. -/
theorem setsParsed_parseArgs_iff (hkey : key ∈ repository.configurationKeys)
    (hbooleans : ∀ holder ∈ configuration :: parents, HoldsBooleans repository holder)
    (unhandledArgs : List (List Char)) {value : List Char} (hvalue : value.getLast? ≠ some '"') :
    SetsParsed library repository parents key value configuration
        (parseArgs library repository parents unhandledArgs
          ['-' :: ((repository.keys key).key ++ '=' :: value)] configuration) ↔
      SurvivesSplit library repository parents key value configuration := by
  have hlast : ((repository.keys key).key ++ '=' :: value).getLast? ≠ some '"' := by
    rw [List.getLast?_append_cons]
    cases value with
    | nil => decide
    | cons c value => rwa [List.getLast?_cons_cons]
  have hunquote := unquote_option hlast
  have hdash : (unquote ('-' :: ((repository.keys key).key ++ '=' :: value))).head? =
      some '-' := by
    rw [hunquote, List.head?_cons]
  have hoption := parseArgs_option library repository parents hdash unhandledArgs configuration
  rw [hunquote] at hoption
  rw [setsParsed_congr hoption.1 hoption.2]
  exact setsParsed_iff hkey hbooleans value

end Options

variable (library repository)

/-- {lit}`fillConfiguration` with the properties of a file; a name that is not known gives a key
that is null. -/
def fillConfiguration :
    List (List Char × List Char) → Configuration Key Double Object →
      MethodResult (Configuration Key Double Object) Unit
  | [], configuration => (.ok (), configuration)
  | (name, value) :: properties, configuration =>
      match repository.getConfigurationKeyMap.lookup name with
      | none => (.error .nullPointerException, configuration)
      | some key =>
          match parseAndSet library repository.keys key value configuration with
          | (.ok (), changed) => fillConfiguration properties changed
          | (.error exception, changed) => (.error exception, changed)

variable {library repository}

/-- Filling the configuration from properties keeps booleans. -/
theorem HoldsBooleans.fillConfiguration {configuration : Configuration Key Double Object}
    (h : HoldsBooleans repository configuration) (properties : List (List Char × List Char)) :
    HoldsBooleans repository
      (fillConfiguration library repository properties configuration).2 := by
  induction properties generalizing configuration with
  | nil => exact h
  | cons property properties ih =>
      rw [Configurations.fillConfiguration]
      split
      next => exact h
      next key _ =>
        have hset : HoldsBooleans repository
            (Configurations.parseAndSet library repository.keys key property.2 configuration).2 :=
          h.parseAndSet key property.2
        split
        next heq =>
          rw [heq] at hset
          exact ih hset
        next heq =>
          rw [heq] at hset
          exact hset

variable (library repository)

/-- Behind any arguments that were accepted, with any default configuration: what is returned so
far are the arguments that are no options, an option without a value toggles its key if it is
boolean and is rejected otherwise, and an option with a value sets its key to the value, and only
this, exactly if the value survives the splitting. -/
theorem parseCommandLine_sets_iff (properties : List (List Char × List Char))
    (defaultConfiguration : Configuration Key Double Object)
    (hdefault : fillConfiguration library repository properties ⟨∅, []⟩ =
      (.ok (), defaultConfiguration))
    (args unhandledArgs : List (List Char)) (configuration : Configuration Key Double Object)
    (hargs : parseCommandLine library repository [⟨∅, []⟩, defaultConfiguration] args ⟨∅, []⟩ =
      (.ok unhandledArgs, configuration)) :
    unhandledArgs = (args.map unquote).filter isUnhandled ∧
    ∀ key ∈ repository.configurationKeys,
      Toggles repository [⟨∅, []⟩, defaultConfiguration] key configuration
        (parseCommandLine library repository [⟨∅, []⟩, defaultConfiguration]
          (args ++ ['-' :: (repository.keys key).key]) ⟨∅, []⟩) ∧
      ∀ value : List Char, value.getLast? ≠ some '"' →
        (SetsParsed library repository [⟨∅, []⟩, defaultConfiguration] key value configuration
            (parseCommandLine library repository [⟨∅, []⟩, defaultConfiguration]
              (args ++ ['-' :: ((repository.keys key).key ++ '=' :: value)]) ⟨∅, []⟩) ↔
          SurvivesSplit library repository [⟨∅, []⟩, defaultConfiguration] key value
            configuration) := by
  have hconfiguration : HoldsBooleans repository (parseArgs library repository
      [⟨∅, []⟩, defaultConfiguration] [] args ⟨∅, []⟩).2 :=
    holdsBooleans_parseArgs holdsBooleans_empty [] args
  have hparents : HoldsBooleans repository
      (fillConfiguration library repository properties ⟨∅, []⟩).2 :=
    holdsBooleans_empty.fillConfiguration properties
  unfold parseCommandLine at hargs ⊢
  rw [hargs] at hconfiguration
  rw [hdefault] at hparents
  have hbooleans : ∀ holder ∈ configuration :: [⟨∅, []⟩, defaultConfiguration],
      HoldsBooleans repository holder := by
    simp only [List.mem_cons, List.not_mem_nil, or_false]
    rintro holder (rfl | rfl | rfl)
    · exact hconfiguration
    · exact holdsBooleans_empty
    · exact hparents
  refine ⟨parseArgs_ok hargs, ?_⟩
  intro key hkey
  refine ⟨?_, ?_⟩
  · rw [parseArgs_append hargs]
    exact toggles_parseArgs hkey hbooleans unhandledArgs
  · intro value hvalue
    rw [parseArgs_append hargs]
    exact setsParsed_parseArgs_iff hkey hbooleans unhandledArgs hvalue

/-- The number of runs is set behind a command. -/
theorem parseCommandLine_sets_numberOfRuns :
    let library : JavaLibrary Unit Unit := ⟨fun _ => none, fun _ => none, fun _ _ => false⟩
    SetsParsed library KnownKey.repository [⟨∅, []⟩, ⟨∅, []⟩] KnownKey.numberOfRunsKey ['5']
      ⟨∅, []⟩
      (parseCommandLine library KnownKey.repository [⟨∅, []⟩, ⟨∅, []⟩]
        (["measure".toList] ++
          ['-' :: ((KnownKey.repository : ReflectionRepository KnownKey Unit Unit).keys
            KnownKey.numberOfRunsKey).key ++ '=' :: ['5']]) ⟨∅, []⟩) := by
  intro library
  have hsurvives : SurvivesSplit library KnownKey.repository [⟨∅, []⟩, ⟨∅, []⟩]
      KnownKey.numberOfRunsKey ['5'] ⟨∅, []⟩ := rfl
  exact (((parseCommandLine_sets_iff library KnownKey.repository [] ⟨∅, []⟩ rfl
    ["measure".toList] ["measure".toList] ⟨∅, []⟩ rfl).2 _ (KnownKey.mem_all _)).2 ['5']
      (by decide)).mpr hsurvives

/-- A governor cannot be set to the empty string, and the executable of the system configurator
cannot be set to a path with an equals sign. -/
theorem governor_empty_not_set :
    let library : JavaLibrary Unit Unit := ⟨fun _ => none, fun _ => none, fun _ _ => false⟩
    ¬SetsParsed library KnownKey.repository [⟨∅, []⟩, ⟨∅, []⟩]
        KnownKey.measurementFrequencyGovernorKey [] ⟨∅, []⟩
        (parseCommandLine library KnownKey.repository [⟨∅, []⟩, ⟨∅, []⟩]
          ["-measurementFrequencyGovernor=".toList] ⟨∅, []⟩) ∧
      ¬SetsParsed library KnownKey.repository [⟨∅, []⟩, ⟨∅, []⟩]
        KnownKey.systemConfiguratorExecutableKey "a=b".toList ⟨∅, []⟩
        (parseCommandLine library KnownKey.repository [⟨∅, []⟩, ⟨∅, []⟩]
          ["-systemConfigurator.executable=a=b".toList] ⟨∅, []⟩) := by
  intro library
  have hgovernor : (parseCommandLine library KnownKey.repository [⟨∅, []⟩, ⟨∅, []⟩]
      ["-measurementFrequencyGovernor=".toList] ⟨∅, []⟩).1.isOk = false := by
    decide +kernel
  have hexecutable : (parseCommandLine library KnownKey.repository [⟨∅, []⟩, ⟨∅, []⟩]
      ["-systemConfigurator.executable=a=b".toList] ⟨∅, []⟩).1.isOk = false := by
    decide +kernel
  constructor
  · rintro ⟨hok, -⟩
    rw [hgovernor] at hok
    cases hok
  · rintro ⟨hok, -⟩
    rw [hexecutable] at hok
    cases hok

end Configurations
end Roofline
