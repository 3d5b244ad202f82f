/-!
# Kinds of files

What a file holds decides how the depot comes by it: a catalogue is made by the packager while a job
is created and is never transferred; a cutout whose source is known is made again from it; all else
is fetched from the archive.
-/

namespace Depot

/-- What a file holds. -/
inductive FileKind
  | imageCube
  | measurementSet
  | catalogue
  | imageCutout
  | spectrum
  | generatedSpectrum
  | momentMap
  | cubelet
  | encapsulation
  | evaluation
  | errorRecord
  deriving DecidableEq, Repr

namespace FileKind

/-- Every kind. -/
def all : List FileKind :=
  [imageCube, measurementSet, catalogue, imageCutout, spectrum, generatedSpectrum, momentMap,
    cubelet, encapsulation, evaluation, errorRecord]

/-- The written name of a kind. -/
def name : FileKind → String
  | imageCube => "IMAGE_CUBE"
  | measurementSet => "MEASUREMENT_SET"
  | catalogue => "CATALOGUE"
  | imageCutout => "IMAGE_CUTOUT"
  | spectrum => "SPECTRUM"
  | generatedSpectrum => "GENERATED_SPECTRUM"
  | momentMap => "MOMENT_MAP"
  | cubelet => "CUBELET"
  | encapsulation => "ENCAPSULATION"
  | evaluation => "EVALUATION"
  | errorRecord => "ERROR_RECORD"

/-- The kind with a written name. -/
def ofName? (s : String) : Option FileKind := all.find? (·.name = s)

theorem ofName?_name (k : FileKind) : ofName? k.name = some k := by
  cases k <;> decide

/-- Catalogues are made by the packager and never transferred. -/
def isCatalogue (k : FileKind) : Bool := k = catalogue

end FileKind

/-- Whether a file is there. -/
inductive FileStatus
  | available
  | pending
  | failed
  deriving DecidableEq, Repr

/-- The written name of a status. -/
def FileStatus.name : FileStatus → String
  | available => "AVAILABLE"
  | pending => "PENDING"
  | failed => "FAILED"

end Depot
