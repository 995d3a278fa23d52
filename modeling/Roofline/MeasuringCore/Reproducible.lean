import Roofline.MeasuringCore.MeasuringCoreService

/-!
# Are the generated files a function of the measurement?

The files are brought to contents that depend on the measurement alone, unless two kernels share
a file for different flags, a text is not ASCII, or the generation fails.

Main results:

- Theorem {lit}`establishes_prepare`: the contents of all files after the generation.
- Theorem {lit}`quietOnly_prepare`: what a generation that changes nothing says about the texts.
- Theorem {lit}`regenerates_iff`: for which measurements the generation can be repeated.
-/

namespace Roofline
namespace MeasuringCore

open Measurements Programs Regeneration

/-! ## Encoded texts -/

section Encoding

variable {charset : Charset}

/-- Texts are encoded one after the other. -/
@[simp] theorem encode_append (s t : String) :
    charset.encode (s ++ t) = charset.encode s ++ charset.encode t := by
  simp [Charset.encode]

/-- Parts are ASCII exactly if each of them is. -/
@[simp] theorem isAscii_flatMap {α : Type} {l : List α} {f : α → Bytes} :
    IsAscii (l.flatMap f) ↔ ∀ a ∈ l, IsAscii (f a) := by
  simp only [IsAscii, List.mem_flatMap]
  constructor
  · exact fun h a ha b hb => h b ⟨a, ha, hb⟩
  · rintro h b ⟨a, ha, hb⟩
    exact h a ha b hb

/-- An ASCII character is encoded as ASCII. -/
theorem isAscii_encodeChar {c : Char} (h : c.toNat < 128) : IsAscii (charset.encodeChar c) := by
  rw [charset.ascii c h, isAscii_cons]
  refine ⟨?_, isAscii_nil⟩
  rw [UInt8.toNat_ofNat']
  omega

/-- A text of ASCII characters. -/
def isAsciiText (s : String) : Bool :=
  s.toList.all fun c => c.toNat < 128

/-- An ASCII text is encoded as ASCII. -/
theorem isAscii_encode {s : String} (h : isAsciiText s = true) : IsAscii (charset.encode s) := by
  rw [Charset.encode, isAscii_flatMap]
  intro c hc
  exact isAscii_encodeChar (of_decide_eq_true (List.all_eq_true.mp h c hc))

/-- A text all of whose characters occur in an ASCII text. -/
theorem isAscii_encode_subset {s t : String} (h : IsAscii (charset.encode t))
    (hsubset : s.toList ⊆ t.toList) : IsAscii (charset.encode s) := by
  rw [Charset.encode, isAscii_flatMap] at h ⊢
  exact fun c hc => h c (hsubset hc)

/-- Turning lines into comments adds ASCII only. -/
theorem isAscii_commentLines {text : String} :
    IsAscii (charset.encode (commentLines text)) ↔ IsAscii (charset.encode text) := by
  simp only [Charset.encode, commentLines, String.toList_ofList, List.flatMap_assoc,
    isAscii_flatMap]
  refine forall₂_congr fun c _ => ?_
  by_cases hc : c = '\n'
  · rw [if_pos hc, hc]
    constructor
    · exact fun _ => isAscii_encodeChar (by decide)
    · exact fun _ c hmem => isAscii_encodeChar
        (of_decide_eq_true (List.all_eq_true.mp (show isAsciiText "\n// " = true by decide) c hmem))
  · rw [if_neg hc]
    simp

/-- So does joining texts. -/
theorem isAscii_intercalate {s : String} {l : List String} (hs : IsAscii (charset.encode s))
    (hl : ∀ t ∈ l, IsAscii (charset.encode t)) : IsAscii (charset.encode (s.intercalate l)) := by
  induction l with
  | nil =>
      rw [String.intercalate_nil]
      exact isAscii_encode (by decide)
  | cons t l ih =>
      cases l with
      | nil =>
          rw [String.intercalate_singleton]
          exact hl t List.mem_cons_self
      | cons u l =>
          rw [String.intercalate_cons_cons, encode_append, encode_append, isAscii_append,
            isAscii_append]
          exact ⟨⟨hl t List.mem_cons_self, hs⟩, ih fun v hv => hl v (List.mem_cons_of_mem t hv)⟩

/-- The last byte is not the one that is taken for the end of a file. -/
def Terminated (bytes : Bytes) : Prop :=
  bytes.getLast? ≠ some 255

/-- Text behind terminated text is terminated. -/
theorem Terminated.append {front back : Bytes} (hfront : Terminated front)
    (hback : Terminated back) : Terminated (front ++ back) := by
  unfold Terminated
  rw [List.getLast?_append]
  cases hlast : back.getLast? with
  | none => exact hfront
  | some b =>
      unfold Terminated at hback
      rw [hlast] at hback
      exact hback

/-- A line that is printed ends in a newline. -/
theorem terminated_line (text : String) : Terminated (charset.encode (text ++ "\n")) := by
  have hnewline : charset.encode "\n" = [10] := by
    have hchar : charset.encodeChar '\n' = [10] := charset.ascii '\n' (by decide)
    change ["\n".toList].flatten.flatMap charset.encodeChar = [10]
    simp [hchar]
  rw [encode_append, hnewline, Terminated, List.getLast?_concat]
  decide

end Encoding

/-! ## The texts of the files -/

section Texts

variable {charset : Charset}

/-- A header is ASCII exactly if what it was made of is. -/
theorem isAscii_macroText {key : MacroKey} {definition : String} :
    IsAscii (charset.encode (macroText key definition)) ↔
      IsAscii (charset.encode key.macroName) ∧ IsAscii (charset.encode key.description) ∧
        IsAscii (charset.encode definition) := by
  have hcomment : IsAscii (charset.encode "// ") := isAscii_encode (by decide)
  have hnewline : IsAscii (charset.encode "\n") := isAscii_encode (by decide)
  have hdefine : IsAscii (charset.encode "\n#define ") := isAscii_encode (by decide)
  have hdefine' : IsAscii (charset.encode "#define ") := isAscii_encode (by decide)
  have hblank : IsAscii (charset.encode " ") := isAscii_encode (by decide)
  have hunderscores : IsAscii (charset.encode "__") := isAscii_encode (by decide)
  have hone : IsAscii (charset.encode " 1\n") := isAscii_encode (by decide)
  have hempty : IsAscii (charset.encode "") := isAscii_encode (by decide)
  unfold macroText
  split
  · simp only [encode_append, isAscii_append, isAscii_commentLines, hcomment, hnewline, hdefine,
      hdefine', hblank, hunderscores, hone, true_and, and_true]
    tauto
  · simp only [encode_append, isAscii_append, isAscii_commentLines, hcomment, hnewline, hdefine,
      hblank, hempty, true_and, and_true]
    tauto

/-- A header ends with a newline. -/
theorem terminated_macroText (key : MacroKey) (definition : String) :
    Terminated (charset.encode (macroText key definition)) := by
  unfold macroText
  split
  · rw [encode_append]
    apply (terminated_line _).append
    have hone : " 1\n" = " 1" ++ "\n" := rfl
    rw [hone, ← String.append_assoc]
    exact terminated_line _
  · rw [String.append_empty]
    exact terminated_line _

/-- A makefile of a kernel is ASCII exactly if its name and flags are. -/
theorem isAscii_optimizationText {kernel : Kernel} :
    IsAscii (charset.encode (optimizationText kernel)) ↔
      IsAscii (charset.encode (getName kernel)) ∧
        IsAscii (charset.encode kernel.optimization) := by
  have hflags : IsAscii (charset.encode "KERNEL_OPTIMIZATION_FLAGS_") :=
    isAscii_encode (by decide)
  have hequals : IsAscii (charset.encode "=") := isAscii_encode (by decide)
  have hnewline : IsAscii (charset.encode "\n") := isAscii_encode (by decide)
  unfold optimizationText
  simp only [encode_append, isAscii_append, hflags, hequals, hnewline, true_and, and_true]

/-- Kernels of one name have the same file exactly if they have the same flags. -/
theorem optimizationText_inj {kernel kernel' : Kernel} (hname : getName kernel = getName kernel') :
    charset.encode (optimizationText kernel) = charset.encode (optimizationText kernel') ↔
      charset.encode kernel.optimization = charset.encode kernel'.optimization := by
  unfold optimizationText
  simp only [encode_append, hname, List.append_cancel_left_eq, List.append_cancel_right_eq]

/-- The name of a kernel is a part of its class name. -/
theorem getName_subset (kernel : Kernel) :
    (getName kernel).toList ⊆ kernel.className.toList := by
  rw [getName, String.toList_ofList]
  exact List.take_subset _ _

/-- The header of the kernels is ASCII exactly if their class names are. -/
theorem isAscii_presentKernelsText {kernels : List Kernel} :
    IsAscii (charset.encode (presentKernelsText kernels)) ↔
      ∀ kernel ∈ kernels, IsAscii (charset.encode kernel.className) := by
  have hdefine : IsAscii (charset.encode "#define RMT_KERNEL_PRESENT_") :=
    isAscii_encode (by decide)
  have hnewline : IsAscii (charset.encode "\n") := isAscii_encode (by decide)
  induction kernels with
  | nil =>
      constructor
      · exact fun _ _ hmem => absurd hmem List.not_mem_nil
      · exact fun _ => isAscii_encode (by decide)
  | cons kernel kernels ih =>
      unfold presentKernelsText
      simp only [encode_append, isAscii_append, hdefine, hnewline, ih, List.forall_mem_cons,
        true_and, and_true]

/-- That header ends with a newline, if it is not empty. -/
theorem terminated_presentKernelsText (kernels : List Kernel) :
    Terminated (charset.encode (presentKernelsText kernels)) := by
  induction kernels with
  | nil =>
      have hempty : charset.encode "" = [] := rfl
      unfold presentKernelsText
      rw [hempty]
      intro h
      cases h
  | cons kernel kernels ih =>
      unfold presentKernelsText
      rw [encode_append]
      exact (terminated_line _).append ih

/-- The names of the libraries are ASCII. -/
theorem isAscii_getMklLibs (threaded is64Bit : Bool) :
    IsAscii (charset.encode (getMklLibs threaded is64Bit)) := by
  cases threaded with
  | false => cases is64Bit <;> exact isAscii_encode (by decide)
  | true => cases is64Bit <;> exact isAscii_encode (by decide)

/-- So are the libraries of a kernel. -/
theorem isAscii_getAdditionalLibraries (is64Bit : Bool) (kernel : Kernel) :
    IsAscii (charset.encode (getAdditionalLibraries is64Bit kernel)) := by
  unfold getAdditionalLibraries
  split
  · split
    · exact isAscii_getMklLibs _ _
    · exact isAscii_encode (by decide)
  · split
    · exact isAscii_getMklLibs _ _
    · exact isAscii_encode (by decide)
  · split
    · exact isAscii_getMklLibs _ _
    · exact isAscii_encode (by decide)
  · exact isAscii_getMklLibs _ _
  · exact isAscii_encode (by decide)
  · exact isAscii_encode (by decide)
  · exact isAscii_encode (by decide)
  · exact isAscii_encode (by decide)
  · simp only [encode_append, isAscii_append, and_assoc]
    refine ⟨?_, ?_, ?_, ?_, ?_, ?_, ?_⟩
    all_goals exact isAscii_encode (by decide)
  · exact isAscii_encode (by decide)

/-- So are its include directories. -/
theorem isAscii_additionalIncludeDirs {kernel : Kernel} {dir : String}
    (h : dir ∈ additionalIncludeDirs kernel) : IsAscii (charset.encode dir) := by
  unfold additionalIncludeDirs at h
  split at h
  · rw [List.mem_singleton.mp h]
    exact isAscii_encode (by decide)
  · rw [List.mem_singleton.mp h]
    exact isAscii_encode (by decide)

variable {surroundings : Surroundings}

/-- The names of kernels are ASCII if their class names are. -/
theorem isAscii_kernelNamesText {kernels : List Kernel}
    (h : ∀ kernel ∈ kernels, IsAscii (surroundings.charset.encode kernel.className)) :
    IsAscii (surroundings.charset.encode (kernelNamesText surroundings kernels)) := by
  rw [kernelNamesText, encode_append, encode_append, isAscii_append, isAscii_append]
  refine ⟨⟨isAscii_encode (by decide), ?_⟩, isAscii_encode (by decide)⟩
  apply isAscii_intercalate (isAscii_encode (by decide))
  intro name hname
  rw [surroundings.hashOrder.mem_iterate] at hname
  rcases List.mem_map.mp hname with ⟨kernel, hkernel, rfl⟩
  exact isAscii_encode_subset (h kernel hkernel) (getName_subset kernel)

/-- The header with the log level is ASCII. -/
theorem isAscii_logLevelText (surroundings : Surroundings) :
    IsAscii (surroundings.charset.encode (logLevelText surroundings)) := by
  unfold logLevelText
  rw [encode_append, encode_append, isAscii_append, isAscii_append]
  refine ⟨⟨isAscii_encode (by decide), ?_⟩, isAscii_encode (by decide)⟩
  unfold logLevel
  split_ifs
  all_goals exact isAscii_encode (by decide)

/-- The makefile with libraries and include directories is ASCII. -/
theorem isAscii_additionalFlagsText (surroundings : Surroundings) (kernels : List Kernel) :
    IsAscii (surroundings.charset.encode (additionalFlagsText surroundings kernels)) := by
  have hblank : IsAscii (surroundings.charset.encode " ") := isAscii_encode (by decide)
  unfold additionalFlagsText
  simp only [encode_append, isAscii_append]
  refine ⟨⟨⟨⟨isAscii_encode (by decide), isAscii_intercalate hblank ?_⟩,
    isAscii_encode (by decide)⟩, isAscii_intercalate hblank ?_⟩,
    isAscii_encode (by decide)⟩
  · intro libraries hlibraries
    rw [surroundings.hashOrder.mem_iterate] at hlibraries
    rcases List.mem_map.mp hlibraries with ⟨kernel, -, rfl⟩
    exact isAscii_getAdditionalLibraries _ kernel
  · intro dir hdir
    rw [surroundings.hashOrder.mem_iterate] at hdir
    rcases List.mem_flatMap.mp hdir with ⟨kernel, -, hmem⟩
    exact isAscii_additionalIncludeDirs hmem

end Texts

/-! ## The contents of the files -/

section Contents

variable (surroundings : Surroundings) (m : Measurement)

/-- The contents of all files; a file without contents does not exist. -/
def generatedFiles : Path → Option Bytes
  | .generated .kernelNames =>
      some (surroundings.charset.encode (kernelNamesText surroundings (kernels m)))
  | .generated .presentKernels =>
      some (surroundings.charset.encode (presentKernelsText (kernels m)))
  | .generated .logLevel => some (surroundings.charset.encode (logLevelText surroundings))
  | .generated .additionalFlags =>
      some (surroundings.charset.encode (additionalFlagsText surroundings (kernels m)))
  | .inFolder .macros name =>
      (surroundings.macroKeys.keys.find? (macroFileName · = name)).bind fun key =>
        (m.getMacroDefinition key).toOption.map fun definition =>
          surroundings.charset.encode (macroText key definition)
  | .inFolder .kernelOptimization name =>
      ((kernels m).find? (optimizationFileName · = name)).map fun kernel =>
        surroundings.charset.encode (optimizationText kernel)

/-- The generation succeeds, the texts are ASCII, and kernels of one name are compiled with the
same flags. -/
structure Reproducible : Prop where
  macros : ∀ key ∈ surroundings.macroKeys.keys, ¬m.ConsideredContradict key
  someKernel : kernels m ≠ []
  optimization : ∀ kernel ∈ kernels m, ∀ kernel' ∈ kernels m, getName kernel = getName kernel' →
    surroundings.charset.encode kernel.optimization =
      surroundings.charset.encode kernel'.optimization
  asciiMacros : ∀ key ∈ surroundings.macroKeys.keys,
    IsAscii (surroundings.charset.encode key.macroName) ∧
      IsAscii (surroundings.charset.encode key.description) ∧
      ∀ definition, m.getMacroDefinition key = .ok definition →
        IsAscii (surroundings.charset.encode definition)
  asciiKernels : ∀ kernel ∈ kernels m,
    IsAscii (surroundings.charset.encode kernel.className) ∧
      IsAscii (surroundings.charset.encode kernel.optimization)

variable {surroundings m}

/-- Headers have one name only if their macros have. -/
theorem macroFileName_inj {key key' : MacroKey} (h : macroFileName key = macroFileName key') :
    key.macroName = key'.macroName := by
  have hlist := congrArg String.toList h
  simp only [macroFileName, String.toList_append, List.append_cancel_right_eq] at hlist
  exact String.toList_inj.mp hlist

/-- Makefiles have one name only if their kernels have. -/
theorem optimizationFileName_inj {kernel kernel' : Kernel}
    (h : optimizationFileName kernel = optimizationFileName kernel') :
    getName kernel = getName kernel' := by
  have hlist := congrArg String.toList h
  unfold optimizationFileName at hlist
  simp only [String.toList_append, List.append_cancel_right_eq, List.append_cancel_left_eq]
    at hlist
  exact String.toList_inj.mp hlist

/-- The header of a macro among the generated files. -/
theorem generatedFiles_header {key : MacroKey} (hkey : key ∈ surroundings.macroKeys.keys)
    {definition : String} (hdefinition : m.getMacroDefinition key = .ok definition) :
    generatedFiles surroundings m (.inFolder .macros (macroFileName key)) =
      some (surroundings.charset.encode (macroText key definition)) := by
  rw [generatedFiles]
  cases hfind : surroundings.macroKeys.keys.find? (macroFileName · = macroFileName key) with
  | none =>
      rw [List.find?_eq_none] at hfind
      exact absurd (decide_eq_true rfl) (hfind key hkey)
  | some found =>
      have hname : macroFileName found = macroFileName key := by
        simpa using List.find?_some hfind
      obtain rfl : found = key := List.inj_on_of_nodup_map surroundings.macroKeys.nodup
        (List.mem_of_find?_eq_some hfind) hkey (macroFileName_inj hname)
      rw [Option.bind_some, hdefinition]
      rfl

/-- The makefile of a kernel among the generated files. -/
theorem generatedFiles_optimization (h : Reproducible surroundings m) {kernel : Kernel}
    (hkernel : kernel ∈ kernels m) :
    generatedFiles surroundings m (.inFolder .kernelOptimization (optimizationFileName kernel)) =
      some (surroundings.charset.encode (optimizationText kernel)) := by
  rw [generatedFiles]
  cases hfind : (kernels m).find? (optimizationFileName · = optimizationFileName kernel) with
  | none =>
      rw [List.find?_eq_none] at hfind
      exact absurd (decide_eq_true rfl) (hfind kernel hkernel)
  | some found =>
      have hfile : optimizationFileName found = optimizationFileName kernel := by
        simpa using List.find?_some hfind
      have hname := optimizationFileName_inj hfile
      have hflags := h.optimization found (List.mem_of_find?_eq_some hfind) kernel hkernel hname
      rw [Option.map_some, (optimizationText_inj hname).mpr hflags]

end Contents

/-! ## The generation of reproducible files -/

section Establishment

variable {surroundings : Surroundings} {P Q : Disk → Prop} {target : Path → Option Bytes}

/-- Writing an ASCII text establishes its file. -/
theorem establishes_writeText {path : Path} {text : String}
    (hascii : IsAscii (surroundings.charset.encode text))
    (htarget : target path = some (surroundings.charset.encode text))
    (hpost : ∀ disk bytes, P disk → Q (disk.write path bytes)) :
    Establishes Disk.read P (writeText surroundings path text) {path} target Q := by
  intro disk hdisk
  rcases update_ascii hascii (disk.read path) with ⟨hcontent, hwriting⟩
  refine ⟨_, _, rfl, hpost disk _ hdisk, ?_, ?_, ?_⟩
  · rintro _ rfl
    rw [Disk.read_write, Function.update_self, hcontent, htarget]
  · intro path' hpath
    rw [Disk.read_write, Function.update_of_ne hpath]
  · rw [hwriting, ← htarget]
    constructor
    · exact fun hne => ⟨path, rfl, hne⟩
    · rintro ⟨_, rfl, hne⟩
      exact hne

/-- The files of a folder that are not present. -/
def spurious (folder : Folder) (presentFiles : List String) : Set Path :=
  {path | ∃ name, path = .inFolder folder name ∧ name ∉ presentFiles}

/-- Removing the other files establishes that they do not exist. -/
theorem establishes_removeFilesNotInSet {folder : Folder} {presentFiles : List String}
    (htarget : ∀ name ∉ presentFiles, target (.inFolder folder name) = none) :
    Establishes Disk.read (fun disk => (disk.folder folder).isSome)
      (removeFilesNotInSet folder presentFiles) (spurious folder presentFiles) target
      fun _ => True := by
  intro disk hdisk
  obtain ⟨directory, hdirectory⟩ := Option.isSome_iff_exists.mp hdisk
  have hread (name : String) : disk.read (.inFolder folder name) = directory.lookup name := by
    rw [Disk.read, hdirectory]
    rfl
  have hrun : outcome (removeFilesNotInSet folder presentFiles) disk =
      (.ok (∃ name ∈ directory.names, name ∉ presentFiles), disk.keep folder presentFiles) := by
    rw [removeFilesNotInSet, outcome_primitive, hdirectory]
  refine ⟨_, _, hrun, trivial, ?_, ?_, ?_⟩
  · rintro _ ⟨name, rfl, hname⟩
    rw [Disk.read_keep, if_neg hname, htarget name hname]
  · intro path hpath
    by_cases hfolder : ∃ name, path = .inFolder folder name
    · rcases hfolder with ⟨name, rfl⟩
      have hname : name ∈ presentFiles := by
        by_contra hname
        exact hpath ⟨name, rfl, hname⟩
      rw [Disk.read_keep, if_pos hname]
    · exact disk.read_keep_of_forall_ne folder presentFiles
        fun name hname => hfolder ⟨name, hname⟩
  · rw [decide_eq_true_iff]
    constructor
    · rintro ⟨name, hmem, hname⟩
      refine ⟨_, ⟨name, rfl, hname⟩, ?_⟩
      rw [hread, htarget name hname, Directory.lookup, if_pos hmem]
      exact Option.some_ne_none _
    · rintro ⟨_, ⟨name, rfl, hname⟩, hne⟩
      rw [hread, htarget name hname, Directory.lookup] at hne
      refine ⟨name, ?_, hname⟩
      by_contra hmem
      exact hne (if_neg hmem)

/-- A folder stays there when files are written. -/
theorem isSome_folder_write {disk : Disk} {folder : Folder} (h : (disk.folder folder).isSome)
    (path : Path) (bytes : Bytes) : ((disk.write path bytes).folder folder).isSome := by
  cases path with
  | generated file => exact h
  | inFolder folder' name =>
      by_cases hfolder : folder = folder'
      · subst hfolder
        simp [Disk.write]
      · simpa [Disk.write, Function.update_of_ne hfolder] using h

/-- The folder of a file that was written is there. -/
theorem isSome_folder_write_self (disk : Disk) (folder : Folder) (name : String) (bytes : Bytes) :
    ((disk.write (.inFolder folder name) bytes).folder folder).isSome := by
  simp [Disk.write]

/-- All files of a folder: one for each element of the list, and the spurious ones. -/
def wholeFolder {α : Type} (folder : Folder) (fileName : α → String) (as : List α) : Set Path :=
  allPlaces (fun a => {.inFolder folder (fileName a)}) as ∪ spurious folder (as.map fileName)

/-- All files of a folder are in its region. -/
theorem mem_wholeFolder {α : Type} (folder : Folder) (fileName : α → String) (as : List α)
    (name : String) : Path.inFolder folder name ∈ wholeFolder folder fileName as := by
  by_cases hmem : name ∈ as.map fileName
  · rcases List.mem_map.mp hmem with ⟨a, ha, rfl⟩
    exact .inl ⟨a, ha, rfl⟩
  · exact .inr ⟨name, rfl, hmem⟩

variable {m : Measurement}

/-- Other headers are not generated. -/
theorem generatedFiles_spurious_header {name : String}
    (h : name ∉ surroundings.macroKeys.keys.map macroFileName) :
    generatedFiles surroundings m (.inFolder .macros name) = none := by
  rw [generatedFiles, List.find?_eq_none.mpr]
  · rfl
  · intro key hkey hname
    exact h (List.mem_map.mpr ⟨key, hkey, of_decide_eq_true hname⟩)

/-- Other makefiles of kernels are not generated. -/
theorem generatedFiles_spurious_optimization {name : String}
    (h : name ∉ (kernels m).map optimizationFileName) :
    generatedFiles surroundings m (.inFolder .kernelOptimization name) = none := by
  rw [generatedFiles, List.find?_eq_none.mpr]
  · rfl
  · intro kernel hkernel hname
    exact h (List.mem_map.mpr ⟨kernel, hkernel, of_decide_eq_true hname⟩)

/-- The headers are established. -/
theorem establishes_writeMacroDefinitions (h : Reproducible surroundings m) :
    Establishes Disk.read (fun _ => True) (writeMacroDefinitions surroundings m)
      (wholeFolder .macros macroFileName surroundings.macroKeys.keys)
      (generatedFiles surroundings m) fun _ => True := by
  have hfiles : Establishes Disk.read (fun disk => (disk.folder .macros).isSome)
      (each (writeMacroFile surroundings m) surroundings.macroKeys.keys)
      (allPlaces (fun key => {.inFolder .macros (macroFileName key)}) surroundings.macroKeys.keys)
      (generatedFiles surroundings m) (fun disk => (disk.folder .macros).isSome) := by
    apply Establishes.each
    intro key hkey
    obtain ⟨definition, hdefinition⟩ :=
      Measurement.getMacroDefinition_ok_iff.mpr (h.macros key hkey)
    rcases h.asciiMacros key hkey with ⟨hname, hdescription, hascii⟩
    rw [writeMacroFile]
    simp only [hdefinition]
    exact establishes_writeText
      (isAscii_macroText.mpr ⟨hname, hdescription, hascii definition hdefinition⟩)
      (generatedFiles_header hkey hdefinition) fun _ bytes hsome => isSome_folder_write hsome _ bytes
  have hall := hfiles.both
    (establishes_removeFilesNotInSet fun _ hname => generatedFiles_spurious_header hname)
  intro disk _
  have hsome : ((disk.makeFolder .macros).folder .macros).isSome := by simp [Disk.makeFolder]
  rcases hall _ hsome with ⟨changed, disk', hrun, hrest⟩
  rw [Disk.read_makeFolder] at hrest
  exact ⟨changed, disk', hrun, hrest⟩

/-- The makefiles of the kernels are established. -/
theorem establishes_writeOptimizationFiles (h : Reproducible surroundings m) :
    Establishes Disk.read (fun _ => True) (writeOptimizationFiles surroundings m)
      (wholeFolder .kernelOptimization optimizationFileName (kernels m))
      (generatedFiles surroundings m) fun _ => True := by
  have hfile (P : Disk → Prop) (kernel : Kernel) (hkernel : kernel ∈ kernels m) :
      Establishes Disk.read P (writeOptimizationFile surroundings kernel)
        {.inFolder .kernelOptimization (optimizationFileName kernel)}
        (generatedFiles surroundings m)
        fun disk => (disk.folder .kernelOptimization).isSome := by
    rcases h.asciiKernels kernel hkernel with ⟨hclass, hflags⟩
    exact establishes_writeText
      (isAscii_optimizationText.mpr ⟨isAscii_encode_subset hclass (getName_subset kernel), hflags⟩)
      (generatedFiles_optimization h hkernel)
      fun disk bytes _ => isSome_folder_write_self disk _ _ bytes
  refine Establishes.both (Q := fun disk => (disk.folder .kernelOptimization).isSome) ?_
    (establishes_removeFilesNotInSet fun _ hname => generatedFiles_spurious_optimization hname)
  -- the first kernel makes the folder
  cases hkernels : kernels m with
  | nil => exact absurd hkernels h.someKernel
  | cons kernel rest =>
      rw [hkernels] at hfile
      have hhead := hfile (fun _ => True) kernel List.mem_cons_self
      have htail := Establishes.each fun kernel' hmem =>
        hfile _ kernel' (List.mem_cons_of_mem kernel hmem)
      rw [allPlaces_cons]
      exact hhead.both htail

end Establishment

/-! ## Generations that change nothing -/

section Quiet

variable {surroundings : Surroundings} {m : Measurement}

/-- A text is written without a change only if the file has it already and it is ASCII. -/
theorem quietOnly_writeText {path : Path} {text : String}
    (hterminated : Terminated (surroundings.charset.encode text)) :
    QuietOnly Disk.read (writeText surroundings path text) fun disk =>
      IsAscii (surroundings.charset.encode text) ∧
        disk.read path = some (surroundings.charset.encode text) := by
  intro disk disk' hrun
  rw [writeText, outcome_primitive] at hrun
  cases hupdate : (update (disk.read path) (surroundings.charset.encode text)).writing with
  | true =>
      simp only [hupdate] at hrun
      cases hrun
  | false =>
      rcases update_quiet hterminated hupdate with ⟨hascii, hold⟩
      have hcontent := (update_ascii hascii (disk.read path)).1
      rcases Prod.mk.inj hrun with ⟨-, rfl⟩
      refine ⟨⟨hascii, hold⟩, ?_⟩
      rw [Disk.read_write, hcontent, ← hold, Function.update_eq_self]

/-- Removing files says nothing about their contents. -/
theorem quietOnly_removeFilesNotInSet (folder : Folder) (presentFiles : List String) :
    QuietOnly Disk.read (removeFilesNotInSet folder presentFiles) fun _ => True := by
  intro disk disk' hrun
  rw [removeFilesNotInSet, outcome_primitive] at hrun
  cases hfolder : disk.folder folder with
  | none =>
      rw [hfolder] at hrun
      cases hrun
  | some directory =>
      rw [hfolder] at hrun
      dsimp only at hrun
      rcases Prod.mk.inj hrun with ⟨hquiet, rfl⟩
      have hpresent := of_decide_eq_false (Except.ok.inj hquiet)
      refine ⟨trivial, ?_⟩
      funext path
      by_cases hpath : ∃ name, path = .inFolder folder name
      · rcases hpath with ⟨name, rfl⟩
        rw [Disk.read_keep]
        by_cases hname : name ∈ presentFiles
        · rw [if_pos hname]
        · have hmem : name ∉ directory.names := fun hmem => hpresent ⟨name, hmem, hname⟩
          rw [if_neg hname, Disk.read, hfolder, Option.bind_some, Directory.lookup, if_neg hmem]
      · exact disk.read_keep_of_forall_ne folder presentFiles
          fun name hname => hpath ⟨name, hname⟩

/-- The header could be written, and it is ASCII. -/
def HeaderIsAscii (surroundings : Surroundings) (m : Measurement) (key : MacroKey) : Prop :=
  ∃ definition, m.getMacroDefinition key = .ok definition ∧
    IsAscii (surroundings.charset.encode (macroText key definition))

/-- A header is written without a change only if it is ASCII. -/
theorem quietOnly_writeMacroFile (key : MacroKey) :
    QuietOnly Disk.read (writeMacroFile surroundings m key) fun _ =>
      HeaderIsAscii surroundings m key := by
  unfold writeMacroFile
  cases hdefinition : m.getMacroDefinition key with
  | error e =>
      intro disk disk' hrun
      cases hrun
  | ok definition =>
      exact (quietOnly_writeText (terminated_macroText key definition)).weaken
        fun _ h => ⟨definition, hdefinition, h.1⟩

/-- The same for all headers. -/
theorem quietOnly_writeMacroDefinitions :
    QuietOnly Disk.read (writeMacroDefinitions surroundings m) fun _ =>
      ∀ key ∈ surroundings.macroKeys.keys, HeaderIsAscii surroundings m key := by
  have hfile (key : MacroKey) (_ : key ∈ surroundings.macroKeys.keys) :
      QuietOnly Disk.read (writeMacroFile surroundings m key) _ :=
    quietOnly_writeMacroFile key
  have hfiles := QuietOnly.each hfile fun _ _ _ _ h => h
  have hall := hfiles.both
    (quietOnly_removeFilesNotInSet .macros (surroundings.macroKeys.keys.map macroFileName))
    fun _ _ _ _ => trivial
  intro disk disk' hrun
  rcases hall (disk.makeFolder .macros) disk' hrun with ⟨⟨hkeys, -⟩, hsame⟩
  rw [Disk.read_makeFolder] at hsame
  exact ⟨hkeys, hsame⟩

/-- The same for the makefiles of the kernels. -/
theorem quietOnly_writeOptimizationFiles :
    QuietOnly Disk.read (writeOptimizationFiles surroundings m) fun disk =>
      ∀ kernel ∈ kernels m,
        IsAscii (surroundings.charset.encode (optimizationText kernel)) ∧
          disk.read (.inFolder .kernelOptimization (optimizationFileName kernel)) =
            some (surroundings.charset.encode (optimizationText kernel)) := by
  have hfile (kernel : Kernel) (_ : kernel ∈ kernels m) :
      QuietOnly Disk.read (writeOptimizationFile surroundings kernel) _ :=
    quietOnly_writeText (terminated_line _)
  have hfiles := QuietOnly.each hfile fun kernel disk disk' hsame h => by rwa [← hsame]
  have hall := hfiles.both
    (quietOnly_removeFilesNotInSet .kernelOptimization ((kernels m).map optimizationFileName))
    fun _ _ _ _ => trivial
  exact hall.weaken fun _ h => h.1

/-- What a generation that changes nothing says about the texts. -/
structure Settled (surroundings : Surroundings) (m : Measurement) (disk : Disk) : Prop where
  headers : ∀ key ∈ surroundings.macroKeys.keys, HeaderIsAscii surroundings m key
  flags : ∀ kernel ∈ kernels m,
    IsAscii (surroundings.charset.encode (optimizationText kernel)) ∧
      disk.read (.inFolder .kernelOptimization (optimizationFileName kernel)) =
        some (surroundings.charset.encode (optimizationText kernel))
  presentKernels : IsAscii (surroundings.charset.encode (presentKernelsText (kernels m)))

/-- A preparation changes nothing only if all files are there. -/
theorem quietOnly_prepare :
    QuietOnly Disk.read (prepareMeasuringCoreBuilding surroundings m)
      (Settled surroundings m) := by
  have hnames : QuietOnly Disk.read (writeKernelNames surroundings m) _ :=
    quietOnly_writeText (terminated_line _)
  have hpresent : QuietOnly Disk.read (writePresentKernels surroundings m) _ :=
    quietOnly_writeText (terminated_presentKernelsText _)
  have hlevel : QuietOnly Disk.read (writeLoglevel surroundings) _ :=
    quietOnly_writeText (terminated_line _)
  have hflags : QuietOnly Disk.read (writeAdditionalBuildFlags surroundings m) _ :=
    quietOnly_writeText (terminated_line _)
  intro disk disk' hrun
  rcases outcome_both_quiet hrun with ⟨disk₁, hrun₁, hrest₁⟩
  rcases outcome_both_quiet hrest₁ with ⟨disk₂, hrun₂, hrest₂⟩
  rcases outcome_both_quiet hrest₂ with ⟨disk₃, hrun₃, hrest₃⟩
  rcases outcome_both_quiet hrest₃ with ⟨disk₄, hrun₄, hrest₄⟩
  rcases outcome_both_quiet hrest₄ with ⟨disk₅, hrun₅, hrun₆⟩
  rcases quietOnly_writeMacroDefinitions _ _ hrun₁ with ⟨hheaders, hsame₁⟩
  rcases quietOnly_writeOptimizationFiles _ _ hrun₂ with ⟨hoptimization, hsame₂⟩
  rcases hnames _ _ hrun₃ with ⟨-, hsame₃⟩
  rcases hpresent _ _ hrun₄ with ⟨hkernels, hsame₄⟩
  rcases hlevel _ _ hrun₅ with ⟨-, hsame₅⟩
  rcases hflags _ _ hrun₆ with ⟨-, hsame₆⟩
  rw [hsame₁] at hoptimization
  refine ⟨⟨hheaders, hoptimization, hkernels.1⟩, ?_⟩
  rw [hsame₆, hsame₅, hsame₄, hsame₃, hsame₂, hsame₁]

end Quiet

/-! ## Repeated generations -/

section Repetition

variable {surroundings : Surroundings} {m : Measurement}

/-- A preparation establishes all files. -/
theorem establishes_prepare (h : Reproducible surroundings m) :
    Establishes Disk.read (fun _ => True) (prepareMeasuringCoreBuilding surroundings m) Set.univ
      (generatedFiles surroundings m) fun _ => True := by
  have hnames := isAscii_kernelNamesText fun kernel hkernel => (h.asciiKernels kernel hkernel).1
  have hpresent : IsAscii (surroundings.charset.encode (presentKernelsText (kernels m))) :=
    isAscii_presentKernelsText.mpr fun kernel hkernel => (h.asciiKernels kernel hkernel).1
  have hlevel := isAscii_logLevelText surroundings
  have hflags := isAscii_additionalFlagsText surroundings (kernels m)
  have hwrite (file : GeneratedFile) (text : String)
      (hascii : IsAscii (surroundings.charset.encode text))
      (htarget : generatedFiles surroundings m (.generated file) =
        some (surroundings.charset.encode text)) :
      Establishes Disk.read (fun _ => True) (writeText surroundings (.generated file) text)
        {.generated file} (generatedFiles surroundings m) fun _ => True :=
    establishes_writeText hascii htarget fun _ _ _ => trivial
  have hall := (establishes_writeMacroDefinitions h).both <|
    (establishes_writeOptimizationFiles h).both <|
    (hwrite .kernelNames _ hnames (by rw [generatedFiles])).both <|
    (hwrite .presentKernels _ hpresent (by rw [generatedFiles])).both <|
    (hwrite .logLevel _ hlevel (by rw [generatedFiles])).both
      (hwrite .additionalFlags _ hflags (by rw [generatedFiles]))
  apply hall.univ
  intro path
  cases path with
  | generated file =>
      cases file with
      | kernelNames => exact .inr (.inr (.inl rfl))
      | presentKernels => exact .inr (.inr (.inr (.inl rfl)))
      | logLevel => exact .inr (.inr (.inr (.inr (.inl rfl))))
      | additionalFlags => exact .inr (.inr (.inr (.inr (.inr rfl))))
  | inFolder folder name =>
      cases folder with
      | macros => exact .inl (mem_wholeFolder _ _ _ _)
      | kernelOptimization => exact .inr (.inl (mem_wholeFolder _ _ _ _))

/-- Whatever files are left over, the generation leaves the same contents; it answers whether a
content has changed, and a second generation changes nothing. -/
def Regenerates (surroundings : Surroundings) (m : Measurement) : Prop :=
  ∃ files : Path → Option Bytes, ∀ disk, ∃ changed disk',
    outcome (prepareMeasuringCoreBuilding surroundings m) disk = (.ok changed, disk') ∧
    disk'.read = files ∧ (changed = true ↔ disk'.read ≠ disk.read) ∧
    ∃ disk'', outcome (prepareMeasuringCoreBuilding surroundings m) disk' = (.ok false, disk'') ∧
      disk''.read = disk'.read

/-- What is reproducible is generated again without a change. -/
theorem Reproducible.regenerates (h : Reproducible surroundings m) :
    Regenerates surroundings m := by
  have hestablishes := establishes_prepare h
  refine ⟨generatedFiles surroundings m, fun disk => ?_⟩
  rcases hestablishes disk trivial with ⟨changed, disk', hrun, -, hin, -, -⟩
  refine ⟨changed, disk', hrun, ?_, hestablishes.changed_iff trivial hrun,
    hestablishes.again trivial hrun⟩
  funext path
  exact hin path (Set.mem_univ path)

/-- The headers do not make the folder of the make files. -/
theorem writeMacroDefinitions_folder :
    Ensures (fun disk => disk.folder .kernelOptimization = none)
      (writeMacroDefinitions surroundings m)
      (fun _ disk => disk.folder .kernelOptimization = none) fun _ _ => True := by
  have hwrite (disk : Disk) (name : String) (bytes : Bytes) :
      (disk.write (.inFolder .macros name) bytes).folder .kernelOptimization =
        disk.folder .kernelOptimization := by
    simp [Disk.write, Function.update_of_ne]
  have hfile (key : MacroKey) (_ : key ∈ surroundings.macroKeys.keys) :
      Ensures (fun disk => disk.folder .kernelOptimization = none)
        (writeMacroFile surroundings m key)
        (fun _ disk => disk.folder .kernelOptimization = none) fun _ _ => True := by
    intro disk hdisk
    unfold writeMacroFile
    cases m.getMacroDefinition key with
    | error e => trivial
    | ok definition =>
        dsimp only
        rw [writeText, outcome_primitive]
        dsimp only
        rw [hwrite, hdisk]
  have hremove (presentFiles : List String) :
      Ensures (fun disk => disk.folder .kernelOptimization = none)
        (removeFilesNotInSet .macros presentFiles)
        (fun _ disk => disk.folder .kernelOptimization = none) fun _ _ => True := by
    intro disk hdisk
    rw [removeFilesNotInSet, outcome_primitive]
    cases disk.folder .macros with
    | none => trivial
    | some directory => simpa [Disk.keep, Function.update_of_ne] using hdisk
  intro disk hdisk
  apply ensures_both (ensures_each hfile) (hremove _) (disk.makeFolder .macros)
  simpa [Disk.makeFolder, Function.update_of_ne] using hdisk

/-- Without a kernel the folder of the make files is not made. -/
theorem someKernel_of_returns {disk disk' : Disk} {changed : Bool}
    (hmissing : disk.folder .kernelOptimization = none)
    (hrun : outcome (prepareMeasuringCoreBuilding surroundings m) disk = (.ok changed, disk')) :
    kernels m ≠ [] := by
  intro hkernels
  rcases outcome_both_ok hrun with ⟨a, b, disk₁, hmacros, hrest, -⟩
  have hstill := @writeMacroDefinitions_folder surroundings m disk hmissing
  rw [hmacros] at hstill
  rcases outcome_both_ok hrest with ⟨c, d, disk₂, hoptimization, -, -⟩
  rcases outcome_both_ok hoptimization with ⟨e, f, disk₃, hnone, hremove, -⟩
  rw [hkernels] at hnone
  cases hnone
  rw [removeFilesNotInSet, outcome_primitive, hstill] at hremove
  cases hremove

/-- Only what is reproducible is. -/
theorem reproducible_of_regenerates (h : Regenerates surroundings m) :
    Reproducible surroundings m := by
  rcases h with ⟨files, hall⟩
  rcases hall ⟨fun _ => none, fun _ => none⟩ with ⟨changed, disk, hrun, -, -, disk', hagain, -⟩
  have hsettled := (quietOnly_prepare disk disk' hagain).1
  constructor
  case macros =>
    intro key hkey
    rcases hsettled.headers key hkey with ⟨definition, hdefinition, -⟩
    exact Measurement.getMacroDefinition_ok_iff.mp ⟨definition, hdefinition⟩
  case someKernel => exact someKernel_of_returns rfl hrun
  case optimization =>
    intro kernel hkernel kernel' hkernel' hname
    have hfile : optimizationFileName kernel = optimizationFileName kernel' := by
      unfold optimizationFileName
      rw [hname]
    have hcontent := (hsettled.flags kernel hkernel).2
    rw [hfile, (hsettled.flags kernel' hkernel').2] at hcontent
    exact (optimizationText_inj hname).mp (Option.some.inj hcontent).symm
  case asciiMacros =>
    intro key hkey
    rcases hsettled.headers key hkey with ⟨definition, hdefinition, hascii⟩
    rcases isAscii_macroText.mp hascii with ⟨hname, hdescription, hascii'⟩
    refine ⟨hname, hdescription, ?_⟩
    intro definition' hdefinition'
    rw [hdefinition] at hdefinition'
    cases hdefinition'
    exact hascii'
  case asciiKernels =>
    intro kernel hkernel
    exact ⟨isAscii_presentKernelsText.mp hsettled.presentKernels kernel hkernel,
      (isAscii_optimizationText.mp (hsettled.flags kernel hkernel).1).2⟩

/-- The generated files are a function of the measurement, and their generation can be repeated,
exactly if they are reproducible. -/
theorem regenerates_iff (surroundings : Surroundings) (m : Measurement) :
    Regenerates surroundings m ↔ Reproducible surroundings m :=
  ⟨reproducible_of_regenerates, Reproducible.regenerates⟩

end Repetition

/-! ## Two kernels of one class -/

/-- No macros, US-ASCII, and no logging. -/
def plainSurroundings : Surroundings where
  macroKeys := ⟨[], List.nodup_nil⟩
  charset :=
    { encodeChar := fun c => if c.toNat < 128 then [UInt8.ofNat c.toNat] else [63]
      ascii := fun _ h => if_pos h }
  hashOrder := ⟨List.dedup, fun _ _ => List.mem_dedup, List.nodup_dedup⟩
  isInfoEnabled := false
  isDebugEnabled := false
  isTraceEnabled := false
  is64Bit := true

/-- Two workloads run arithmetic kernels that are compiled with different flags. -/
def twoArithmeticKernels : Measurement where
  macroDefinitions _ := none
  workloads := [⟨0⟩, ⟨1⟩]
  configurators := []
  rules := []
  overallMeasurerSet := none
  workload w := ⟨fun _ => none, 0, some ⟨w.index⟩, none, 0⟩
  kernel k :=
    { className := "ArithmeticKernel"
      macroDefinitions := fun _ => none
      id := 0
      optimization := if k.index = 0 then "-O3" else "-O3 -msse2"
      warmCode := false
      warmData := false
      numThreads := 1 }
  measurerSet _ := ⟨0, none, [], []⟩
  measurer _ := ⟨fun _ => none, 0⟩
  configurator _ := .sleep (fun _ => none) 0 0 0 0

/-- Both flags are written to one file each time, so that something always changes. -/
theorem not_regenerates : ¬Regenerates plainSurroundings twoArithmeticKernels := by
  intro h
  have hkernels : twoArithmeticKernels.getKernels = [⟨0⟩, ⟨1⟩] := by decide
  have hmem (k : Ref .kernel) (hk : k ∈ [⟨0⟩, ⟨1⟩]) :
      twoArithmeticKernels.kernel k ∈ kernels twoArithmeticKernels := by
    rw [kernels, hkernels]
    exact List.mem_map_of_mem hk
  have hsame := (reproducible_of_regenerates h).optimization _ (hmem ⟨0⟩ (by decide)) _
    (hmem ⟨1⟩ (by decide)) rfl
  have hlength := congrArg List.length hsame
  exact absurd hlength (by decide +kernel)

end MeasuringCore
end Roofline
