import Mathlib.Data.Finset.Basic
import Mathlib.Data.List.Dedup
import Roofline.Library.Regeneration
import Roofline.Measurement.MacroDefinitions
import Roofline.MeasuringCore.UpdatingFileOutputStream

/-!
# The generated files of the measuring core

Before the measuring core is compiled, headers and make files are generated for the measurement:
one header for each macro, one make file with the optimization flags of each kernel, and four
files about all kernels and the log level.  Files that are left over from other measurements are
deleted.  The answer whether any file has changed decides about the compilation.
-/

namespace Roofline
namespace MeasuringCore

open Measurements Programs Regeneration UpdatingFileOutputStream

/-! ## Surroundings -/

/-- The default charset of the virtual machine; it extends ASCII. -/
structure Charset where
  encodeChar : Char → Bytes
  ascii : ∀ c, c.toNat < 128 → encodeChar c = [UInt8.ofNat c.toNat]

/-- A text in the default charset. -/
def Charset.encode (charset : Charset) (text : String) : Bytes :=
  text.toList.flatMap charset.encodeChar

/-- In which order a {lit}`HashSet` iterates over the strings that were added to it. -/
structure HashOrder where
  iterate : List String → List String
  mem_iterate : ∀ adds s, s ∈ iterate adds ↔ s ∈ adds
  nodup_iterate : ∀ adds, (iterate adds).Nodup

/-- The macro keys of the program, in the order of their names. -/
structure MacroKeys where
  keys : List MacroKey
  nodup : (keys.map MacroKey.macroName).Nodup

/-- What the generated files depend on besides the measurement. -/
structure Surroundings where
  macroKeys : MacroKeys
  charset : Charset
  hashOrder : HashOrder
  isInfoEnabled : Bool
  isDebugEnabled : Bool
  isTraceEnabled : Bool
  is64Bit : Bool

/-! ## Kernels -/

section Kernels

/-- {lit}`LibraryHelper.getMklLibs`. -/
def getMklLibs (threaded is64Bit : Bool) : String :=
  let libraryPath :=
    if is64Bit then "-L/opt/intel/mkl/lib/intel64" else "-L/opt/intel/mkl/lib/ia32"
  let mklIntel := if is64Bit then "-lmkl_intel_lp64" else "-lmkl_intel"
  let mkl := if threaded then "-lmkl_gnu_thread" else "-lmkl_sequential"
  let additional := if threaded then "-fopenmp -lpthread" else ""
  libraryPath ++ " " ++ mklIntel ++ " " ++ mkl ++ " -lmkl_core " ++ additional

/-- The macro that selects a library. -/
def useMklMacro : MacroKey where
  macroName := "RMT_BLAS_KERNEL_BASE_USEMKL"
  description := "if set to 1, the mkl library is used"
  defaultValue := "0"

/-- {lit}`isUseMkl` of the kernels that extend {lit}`BlasKernelBase`. -/
def isUseMkl (kernel : Kernel) : Bool :=
  MacroDefinitions.getMacroDefinition kernel.macroDefinitions useMklMacro = "1"

/-- {lit}`getAdditionalLibraries`, which some classes override. -/
def getAdditionalLibraries (is64Bit : Bool) (kernel : Kernel) : String :=
  match kernel.className with
  | "DaxpyKernel" | "DgemvKernel" | "MMMKernel" =>
      if isUseMkl kernel then getMklLibs true is64Bit else "-lblas"
  | "FFTmklKernel" => getMklLibs (kernel.numThreads > 1) is64Bit
  | "SeqFFTfftwSplitKernel" | "SeqFFTfftwKernel" => "-lfftw3 -lm"
  | "FFTfftwKernel" => "-lfftw3_threads -lfftw3 -lm"
  | "WhtKernel" => "-lwht"
  | "SfoKernel" =>
      "~/svn/azuagarg_thesis/build/libbenchmark.a " ++
      "~/svn/azuagarg_thesis/build/libsatoru_func_fw.a " ++
      "~/svn/azuagarg_thesis/build/libsubmodularity.a " ++
      "~/svn/azuagarg_thesis/build/libqr_updates.a " ++
      "-L/opt/intel/mkl/lib/ia32 -lrt -lmkl_rt /opt/intel/lib/ia32/libiomp5.so " ++
      "/opt/intel/lib/ia32/libimf.so -lgfortran -lquadmath " ++
      "-Wl,-rpath,/opt/intel/mkl/lib/ia32:/opt/intel/lib/ia32"
  | _ => ""

/-- {lit}`getAdditionalIncludeDirs`, split at blanks. -/
def additionalIncludeDirs (kernel : Kernel) : List String :=
  match kernel.className with
  | "FFTmklKernel" => ["-I/opt/intel/mkl/include"]
  | _ => [""]

/-- {lit}`getName`: the class name without the suffix {lit}`Kernel`. -/
def getName (kernel : Kernel) : String :=
  String.ofList (kernel.className.toList.take (kernel.className.length - "Kernel".length))

end Kernels

/-! ## Texts -/

section Texts

variable (surroundings : Surroundings)

/-- {lit}`replace("\n", "\n// ")`. -/
def commentLines (text : String) : String :=
  String.ofList (text.toList.flatMap fun c => if c = '\n' then "\n// ".toList else [c])

/-- {lit}`matches("[a-zA-Z0-9_]*")`. -/
def isCombinable (definition : String) : Bool :=
  definition.toList.all fun c => c.isAlphanum || c = '_'

/-- The header of a macro. -/
def macroText (key : MacroKey) (definition : String) : String :=
  "// " ++ commentLines key.description ++ "\n#define " ++ key.macroName ++ " " ++ definition ++
    "\n" ++
    if isCombinable definition then
      "#define " ++ key.macroName ++ "__" ++ definition ++ " 1\n"
    else
      ""

/-- The makefile with the optimization flags of a kernel. -/
def optimizationText (kernel : Kernel) : String :=
  "KERNEL_OPTIMIZATION_FLAGS_" ++ getName kernel ++ "=" ++ kernel.optimization ++ "\n"

/-- The makefile with the names of the kernels. -/
def kernelNamesText (kernels : List Kernel) : String :=
  "KERNEL_NAMES=" ++ " ".intercalate (surroundings.hashOrder.iterate (kernels.map getName)) ++ "\n"

/-- The header with the macros of the kernels. -/
def presentKernelsText : List Kernel → String
  | [] => ""
  | kernel :: kernels =>
      "#define RMT_KERNEL_PRESENT_" ++ kernel.className ++ "\n" ++ presentKernelsText kernels

/-- The most verbose level that is enabled. -/
def logLevel : String :=
  if surroundings.isTraceEnabled then "LOGLEVEL_TRACE"
  else if surroundings.isDebugEnabled then "LOGLEVEL_DEBUG"
  else if surroundings.isInfoEnabled then "LOGLEVEL_INFO"
  else "LOGLEVEL_WARNING"

/-- The header with the log level. -/
def logLevelText : String :=
  "#define LOGLEVEL " ++ logLevel surroundings ++ "\n"

/-- The makefile with libraries and include directories. -/
def additionalFlagsText (kernels : List Kernel) : String :=
  "LIBS+=" ++
    " ".intercalate (surroundings.hashOrder.iterate
      (kernels.map (getAdditionalLibraries surroundings.is64Bit))) ++
    "\nINCLUDE_DIRS+=" ++
    " ".intercalate (surroundings.hashOrder.iterate (kernels.flatMap additionalIncludeDirs)) ++ "\n"

end Texts

/-! ## Files -/

/-- The files of a directory. -/
structure Directory where
  names : Finset String
  content : String → Bytes

namespace Directory

/-- A directory without files. -/
def empty : Directory :=
  ⟨∅, fun _ => []⟩

/-- The content of a file, if it exists. -/
def lookup (directory : Directory) (name : String) : Option Bytes :=
  if name ∈ directory.names then some (directory.content name) else none

/-- A file is created or replaced. -/
def write (directory : Directory) (name : String) (bytes : Bytes) : Directory :=
  ⟨insert name directory.names, Function.update directory.content name bytes⟩

/-- All other files are deleted. -/
def keep (directory : Directory) (presentFiles : List String) : Directory :=
  ⟨directory.names.filter (· ∈ presentFiles), directory.content⟩

end Directory

/-- The directories below {lit}`generated` in which spurious files are deleted. -/
inductive Folder where
  | macros
  | kernelOptimization
deriving DecidableEq

/-- The files that are generated in {lit}`generated` itself. -/
inductive GeneratedFile where
  | kernelNames
  | presentKernels
  | logLevel
  | additionalFlags
deriving DecidableEq

/-- A file that is generated, by its place. -/
inductive Path where
  | generated (file : GeneratedFile)
  | inFolder (folder : Folder) (name : String)
deriving DecidableEq

/-- The generation directories; a folder may be missing. -/
structure Disk where
  generated : GeneratedFile → Option Bytes
  folder : Folder → Option Directory

namespace Disk

/-- The content of a file. -/
def read (disk : Disk) : Path → Option Bytes
  | .generated file => disk.generated file
  | .inFolder folder name => (disk.folder folder).bind (·.lookup name)

/-- {lit}`mkdirs` of a folder. -/
def makeFolder (disk : Disk) (folder : Folder) : Disk :=
  { disk with
    folder := Function.update disk.folder folder ((disk.folder folder).getD .empty) }

/-- The file is written; its folder is made before. -/
def write (disk : Disk) (path : Path) (bytes : Bytes) : Disk :=
  match path with
  | .generated file => { disk with generated := Function.update disk.generated file (some bytes) }
  | .inFolder folder name =>
      { disk with
        folder := Function.update disk.folder folder
          (some (((disk.folder folder).getD .empty).write name bytes)) }

/-- All files of a folder that are not present are deleted. -/
def keep (disk : Disk) (folder : Folder) (presentFiles : List String) : Disk :=
  { disk with
    folder := Function.update disk.folder folder
      ((disk.folder folder).map (·.keep presentFiles)) }

end Disk

/-! ## Generation -/

section Generation

variable (surroundings : Surroundings) (m : Measurement)

/-- The kernels of the measurement. -/
def kernels : List Kernel :=
  m.getKernels.map m.kernel

/-- Print a text to an updating stream on a file. -/
def writeText (path : Path) (text : String) : Program Throwable Disk Bool :=
  primitive fun disk =>
    let stream := update (disk.read path) (surroundings.charset.encode text)
    (.ok stream.writing, disk.write path stream.content)

/-- Delete all files that are not present; {lit}`listFiles` of a missing directory is null. -/
def removeFilesNotInSet (folder : Folder) (presentFiles : List String) :
    Program Throwable Disk Bool :=
  primitive fun disk =>
    match disk.folder folder with
    | none => (.error .nullPointerException, disk)
    | some directory =>
        (.ok (∃ name ∈ directory.names, name ∉ presentFiles), disk.keep folder presentFiles)

/-- The name of the header of a macro. -/
def macroFileName (key : MacroKey) : String :=
  key.macroName ++ ".h"

/-- The stream is opened, which creates a missing file, before the definition is looked up. -/
def writeMacroFile (key : MacroKey) : Program Throwable Disk Bool :=
  let path := .inFolder .macros (macroFileName key)
  match m.getMacroDefinition key with
  | .error e =>
      primitive fun disk => (.error e, disk.write path (create (disk.read path)).content)
  | .ok macroDefinition => writeText surroundings path (macroText key macroDefinition)

/-- {lit}`writeMacroDefinitions` -/
def writeMacroDefinitions : Program Throwable Disk Bool := do
  modify (·.makeFolder .macros)
  both (each (writeMacroFile surroundings m) surroundings.macroKeys.keys)
    (removeFilesNotInSet .macros (surroundings.macroKeys.keys.map macroFileName))

/-- The name of the makefile of a kernel. -/
def optimizationFileName (kernel : Kernel) : String :=
  "kernelOptimization" ++ getName kernel ++ ".mk"

/-- The round of the loop of {lit}`writeOptimizationFiles`. -/
def writeOptimizationFile (kernel : Kernel) : Program Throwable Disk Bool :=
  writeText surroundings (.inFolder .kernelOptimization (optimizationFileName kernel))
    (optimizationText kernel)

/-- {lit}`writeOptimizationFiles` -/
def writeOptimizationFiles : Program Throwable Disk Bool :=
  both (each (writeOptimizationFile surroundings) (kernels m))
    (removeFilesNotInSet .kernelOptimization ((kernels m).map optimizationFileName))

/-- {lit}`writeKernelNames` -/
def writeKernelNames : Program Throwable Disk Bool :=
  writeText surroundings (.generated .kernelNames) (kernelNamesText surroundings (kernels m))

/-- {lit}`writePresentKernels` -/
def writePresentKernels : Program Throwable Disk Bool :=
  writeText surroundings (.generated .presentKernels) (presentKernelsText (kernels m))

/-- {lit}`writeLoglevel` -/
def writeLoglevel : Program Throwable Disk Bool :=
  writeText surroundings (.generated .logLevel) (logLevelText surroundings)

/-- {lit}`writeAdditionalBuildFlags` -/
def writeAdditionalBuildFlags : Program Throwable Disk Bool :=
  writeText surroundings (.generated .additionalFlags)
    (additionalFlagsText surroundings (kernels m))

/-- {lit}`prepareMeasuringCoreBuilding`: whether any of them has changed something. -/
def prepareMeasuringCoreBuilding : Program Throwable Disk Bool :=
  both (writeMacroDefinitions surroundings m) <|
  both (writeOptimizationFiles surroundings m) <|
  both (writeKernelNames surroundings m) <|
  both (writePresentKernels surroundings m) <|
  both (writeLoglevel surroundings) (writeAdditionalBuildFlags surroundings m)

end Generation

/-! ## Reading after writing -/

namespace Directory

/-- An empty directory has no files. -/
@[simp] theorem lookup_empty (name : String) : empty.lookup name = none :=
  if_neg (Finset.notMem_empty name)

/-- The files after one was written. -/
theorem lookup_write (directory : Directory) (name : String) (bytes : Bytes) :
    (directory.write name bytes).lookup = Function.update directory.lookup name (some bytes) := by
  funext name'
  by_cases hname : name' = name
  · subst hname
    simp [lookup, write]
  · simp [lookup, write, hname]

/-- The files after others were deleted. -/
theorem lookup_keep (directory : Directory) (presentFiles : List String) (name : String) :
    (directory.keep presentFiles).lookup name =
      if name ∈ presentFiles then directory.lookup name else none := by
  by_cases hmem : name ∈ presentFiles
  · simp [lookup, keep, hmem]
  · simp [lookup, keep, hmem]

end Directory

namespace Disk

/-- Creating a folder creates no files. -/
@[simp] theorem read_makeFolder (disk : Disk) (folder : Folder) :
    (disk.makeFolder folder).read = disk.read := by
  funext path
  cases path with
  | generated file => rfl
  | inFolder folder' name =>
      by_cases hfolder : folder' = folder
      · subst hfolder
        cases hold : disk.folder folder' with
        | none => simp [read, makeFolder, hold]
        | some directory => simp [read, makeFolder, hold]
      · simp [read, makeFolder, Function.update_of_ne hfolder]

/-- What is written is read. -/
theorem read_write (disk : Disk) (path : Path) (bytes : Bytes) :
    (disk.write path bytes).read = Function.update disk.read path (some bytes) := by
  funext path'
  cases path with
  | generated file =>
      cases path' with
      | generated file' =>
          by_cases hfile : file' = file
          · subst hfile
            simp [read, write]
          · simp [read, write, Function.update_of_ne, hfile]
      | inFolder folder' name' => simp [read, write, Function.update_of_ne]
  | inFolder folder name =>
      cases path' with
      | generated file' => simp [read, write, Function.update_of_ne]
      | inFolder folder' name' =>
          by_cases hfolder : folder' = folder
          · subst hfolder
            by_cases hname : name' = name
            · subst hname
              simp [read, write, Directory.lookup_write]
            · cases hold : disk.folder folder' with
              | none => simp [read, write, Directory.lookup_write, hname, hold]
              | some directory => simp [read, write, Directory.lookup_write, hname, hold]
          · simp [read, write, hfolder]

/-- The files of a folder after others were deleted. -/
theorem read_keep (disk : Disk) (folder : Folder) (presentFiles : List String) (name : String) :
    (disk.keep folder presentFiles).read (.inFolder folder name) =
      if name ∈ presentFiles then disk.read (.inFolder folder name) else none := by
  cases hold : disk.folder folder with
  | none => simp [read, keep, hold]
  | some directory => simp [read, keep, hold, Directory.lookup_keep]

/-- Nothing else is deleted. -/
theorem read_keep_of_forall_ne (disk : Disk) (folder : Folder) (presentFiles : List String)
    {path : Path} (h : ∀ name, path ≠ .inFolder folder name) :
    (disk.keep folder presentFiles).read path = disk.read path := by
  cases path with
  | generated file => rfl
  | inFolder folder' name =>
      have hfolder : folder' ≠ folder := by
        rintro rfl
        exact h name rfl
      simp [read, keep, Function.update_of_ne hfolder]

end Disk

end MeasuringCore
end Roofline
