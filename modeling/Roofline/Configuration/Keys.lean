import Roofline.Configuration.Configuration

/-!
# The known configuration keys

The keys that can be set from outside are found by reflection: they are the static fields of the
classes of the measurement driver.  They are looked up by their names.

Main results:

- Theorem {lit}`lookup_getConfigurationKeyMap`: a known key is found by its name.
-/

namespace Roofline
namespace Configurations

variable {Key Double Object : Type}

/-- A name that can be written in front of an equals sign and at the end of an argument. -/
structure IsName (name : List Char) : Prop where
  nonempty : name ≠ []
  equals : '=' ∉ name
  quote : name.getLast? ≠ some '"'

/-- The key objects and those among them that are known; {lit}`keySet` is the order in which the
names come out of the hash map. -/
structure ReflectionRepository (Key Double Object : Type) where
  keys : Key → ConfigurationKey Double Object
  configurationKeys : List Key
  keySet : List (List Char)
  nodup : (configurationKeys.map fun key => (keys key).key).Nodup
  isName : ∀ key ∈ configurationKeys, IsName (keys key).key
  isBoolean : ∀ key ∈ configurationKeys, (keys key).valueType = .boolean →
    ∃ value, (keys key).defaultValue = some (.boolean value)

namespace ReflectionRepository

variable (repository : ReflectionRepository Key Double Object)

/-- {lit}`getConfigurationKeyMap`: the keys by their names. -/
def getConfigurationKeyMap : AList fun _ : List Char => Key :=
  repository.configurationKeys.foldl (fun map key => map.insert (repository.keys key).key key) ∅

/-- Keys with different names are all found after they were inserted. -/
theorem lookup_foldl_insert {name : Key → List Char} {known : List Key}
    (hnodup : (known.map name).Nodup) (map : AList fun _ : List Char => Key) :
    (∀ text ∉ known.map name,
      (known.foldl (fun map key => map.insert (name key) key) map).lookup text =
        map.lookup text) ∧
    ∀ key ∈ known,
      (known.foldl (fun map key => map.insert (name key) key) map).lookup (name key) =
        some key := by
  induction known generalizing map with
  | nil => simp
  | cons first known ih =>
      rw [List.map_cons, List.nodup_cons] at hnodup
      obtain ⟨hother, hknown⟩ := ih hnodup.2 (map.insert (name first) first)
      constructor
      · intro text htext
        rw [List.map_cons, List.mem_cons, not_or] at htext
        rw [List.foldl_cons, hother text htext.2, AList.lookup_insert_ne htext.1]
      · intro key hkey
        rcases List.mem_cons.mp hkey with rfl | hkey
        · rw [List.foldl_cons, hother _ hnodup.1, AList.lookup_insert]
        · exact hknown key hkey

/-- A known key is found by its name. -/
theorem lookup_getConfigurationKeyMap {key : Key} (h : key ∈ repository.configurationKeys) :
    repository.getConfigurationKeyMap.lookup (repository.keys key).key = some key :=
  (lookup_foldl_insert repository.nodup ∅).2 key h

end ReflectionRepository

/-! ## The keys of the measurement driver -/

/-- The static fields that hold a key. -/
inductive KnownKey where
  | debugOutputKey
  | logLevelKey
  | userConfigFileKey
  | userLog4jConfigFileKey
  | useCachedResultsKey
  | checkCoreKey
  | measureMultiThreadedKey
  | optimizationCacheLocationKey
  | cacheLocationKey
  | systemConfiguratorExecutableKey
  | measureRawKey
  | measurementFrequencyGovernorKey
  | defaultFrequencyGovernorKey
  | reoptimizeKey
  | fastOptimizeKey
  | showMinMax
  | showPercentiles
  | keyPositionKey
  | numberOfRunsKey
  | messageDigestKey
  | measuringCorePathKey
  | fastKey
deriving DecidableEq

/-- The class {lit}`KeyPosition`. -/
def keyPosition : String :=
  "ch.ethz.ruediste.roofline.measurementDriver.dom.entities.plot.KeyPosition"

namespace KnownKey

/-- A key for strings. -/
def stringKey (key defaultValue : String) : ConfigurationKey Double Object :=
  ⟨key.toList, .string, some (.string defaultValue.toList)⟩

/-- A key for booleans. -/
def booleanKey (key : String) (defaultValue : Bool) : ConfigurationKey Double Object :=
  ⟨key.toList, .boolean, some (.boolean defaultValue)⟩

/-- The key as its class creates it. -/
def create : KnownKey → ConfigurationKey Double Object
  | debugOutputKey => booleanKey "debug" false
  | logLevelKey => stringKey "logLevel" "INFO"
  | userConfigFileKey => stringKey "userConfigFile" "~/.roofline/config"
  | userLog4jConfigFileKey => stringKey "userLog4jConfig" "~/.roofline/log4j.config"
  | useCachedResultsKey => booleanKey "useCachedResults" true
  | checkCoreKey => booleanKey "checkCore" true
  | measureMultiThreadedKey => booleanKey "measureMultiThreaded" true
  | optimizationCacheLocationKey =>
      stringKey "optimizationCache.location" "~/.roofline/optimizationCache"
  | cacheLocationKey => stringKey "cache.location" "~/.roofline/cache"
  | systemConfiguratorExecutableKey => stringKey "systemConfigurator.executable" "."
  | measureRawKey => booleanKey "measure.raw" false
  | measurementFrequencyGovernorKey => stringKey "measurementFrequencyGovernor" "performance"
  | defaultFrequencyGovernorKey => stringKey "defaultFrequencyGovernor" "ondemand"
  | reoptimizeKey => booleanKey "reoptimize" false
  | fastOptimizeKey => booleanKey "optimize.fast" true
  | showMinMax => booleanKey "showMinMax" true
  | showPercentiles => booleanKey "showPercentiles" true
  | keyPositionKey =>
      ⟨"keyPosition".toList,
        .enumeration keyPosition
          (["TopLeft", "TopRight", "BottomLeft", "BottomRight", "NoKey", "Undefined"].map
            String.toList),
        some (.constant keyPosition "Undefined".toList)⟩
  | numberOfRunsKey => ⟨"qms.numberOfRuns".toList, .integer, some (.integer ⟨10, by decide⟩)⟩
  | messageDigestKey => stringKey "cache.messageDigest" "MD5"
  | measuringCorePathKey => stringKey "measurement.corePath" "."
  | fastKey => booleanKey "fast" false

/-- All keys, in some order. -/
def all : List KnownKey :=
  [debugOutputKey, logLevelKey, userConfigFileKey, userLog4jConfigFileKey, useCachedResultsKey,
    checkCoreKey, measureMultiThreadedKey, optimizationCacheLocationKey, cacheLocationKey,
    systemConfiguratorExecutableKey, measureRawKey, measurementFrequencyGovernorKey,
    defaultFrequencyGovernorKey, reoptimizeKey, fastOptimizeKey, showMinMax, showPercentiles,
    keyPositionKey, numberOfRunsKey, messageDigestKey, measuringCorePathKey, fastKey]

/-- No key is missing. -/
theorem mem_all (key : KnownKey) : key ∈ all := by
  cases key <;> decide

/-- The names do not depend on what the values can be. -/
theorem key_create (key : KnownKey) :
    (create key : ConfigurationKey Double Object).key =
      (create key : ConfigurationKey Empty Empty).key := by
  cases key <;> rfl

/-- No two keys have the same name. -/
theorem nodup_names :
    (all.map fun key => (create key : ConfigurationKey Double Object).key).Nodup := by
  rw [funext key_create]
  decide +kernel

/-- The names are such that options can give them. -/
theorem isName_key (key : KnownKey) : IsName (create key : ConfigurationKey Double Object).key := by
  rw [key_create]
  have hnames : ∀ known ∈ all,
      (create known : ConfigurationKey Empty Empty).key ≠ [] ∧
        '=' ∉ (create known : ConfigurationKey Empty Empty).key ∧
          (create known : ConfigurationKey Empty Empty).key.getLast? ≠ some '"' := by
    decide +kernel
  obtain ⟨hnonempty, hequals, hquote⟩ := hnames key (mem_all key)
  exact ⟨hnonempty, hequals, hquote⟩

/-- The default of a boolean key is a boolean. -/
theorem defaultValue_create {key : KnownKey}
    (h : (create key : ConfigurationKey Double Object).valueType = .boolean) :
    ∃ value, (create key : ConfigurationKey Double Object).defaultValue =
      some (.boolean value) := by
  cases key <;> first | exact ⟨_, rfl⟩ | cases h

/-- What reflection finds in the measurement driver. -/
def repository : ReflectionRepository KnownKey Double Object where
  keys := create
  configurationKeys := all
  keySet := all.map fun key => (create key : ConfigurationKey Double Object).key
  nodup := nodup_names
  isName := fun key _ => isName_key key
  isBoolean := fun _ _ => defaultValue_create

end KnownKey

end Configurations
end Roofline
