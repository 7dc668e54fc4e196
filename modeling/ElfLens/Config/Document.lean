import ElfLens.Json.Parser
import ElfLens.Json.Printer
import ElfLens.Memory.Files

set_option autoImplicit false

namespace ElfLens

namespace Json

/-- What a reader makes of the value given for a field, or the default if none is given. -/
def fieldOr? {α : Type} (given : List (String × Json.Value)) (name : String) (default : α)
    (read : Json.Value → Option α) : Option α :=
  match given.lookup name with
  | none => some default
  | some value => read value

end Json

namespace PltShape

def fieldNames : List String := ["stub_stride", "pointer_width"]

def ofJson? (document : Json.Value) : Option PltShape := do
  let given ← document.fields? fieldNames
  let stubStride ← Json.fieldOr? given "stub_stride" ({} : PltShape).stubStride Json.Value.word?
  let pointerWidth ←
    Json.fieldOr? given "pointer_width" ({} : PltShape).pointerWidth Json.Value.word?
  return { stubStride, pointerWidth }

end PltShape

namespace RegionPolicy

def fieldNames : List String := ["executable_only", "coalesce"]

def ofJson? (document : Json.Value) : Option RegionPolicy := do
  let given ← document.fields? fieldNames
  let executableOnly ←
    Json.fieldOr? given "executable_only" ({} : RegionPolicy).executableOnly Json.Value.bool?
  let coalesce ← Json.fieldOr? given "coalesce" ({} : RegionPolicy).coalesce Json.Value.bool?
  return { executableOnly, coalesce }

end RegionPolicy

namespace Limits

def fieldNames : List String := ["max_fetch_bytes", "max_table_bytes"]

def ofJson? (document : Json.Value) : Option Limits := do
  let given ← document.fields? fieldNames
  let fetchBytes ← Json.fieldOr? given "max_fetch_bytes" ({} : Limits).fetchBytes Json.Value.word?
  let tableBytes ← Json.fieldOr? given "max_table_bytes" ({} : Limits).tableBytes Json.Value.word?
  return { fetchBytes, tableBytes }

end Limits

namespace Config

def fieldNames : List String := ["plt", "maps", "io"]

def ofJson? (document : Json.Value) : Option Config := do
  let given ← document.fields? fieldNames
  let plt ← Json.fieldOr? given "plt" ({} : Config).plt PltShape.ofJson?
  let maps ← Json.fieldOr? given "maps" ({} : Config).maps RegionPolicy.ofJson?
  let io ← Json.fieldOr? given "io" ({} : Config).io Limits.ofJson?
  return { plt, maps, io }

def ofText (text : String) : Except Fault Config :=
  match (Json.parse? text).bind ofJson? with
  | some config => .ok config
  | none => .error (.badConfig "not a configuration document")

def ofFile (files : Files) (path : String) : Except Fault Config := do
  ofText (← files.text path)

def toJson (config : Config) : Json.Value :=
  .object [
    (some "plt", .object [
      (some "stub_stride", .ofWord config.plt.stubStride),
      (some "pointer_width", .ofWord config.plt.pointerWidth)]),
    (some "maps", .object [
      (some "executable_only", .bool config.maps.executableOnly),
      (some "coalesce", .bool config.maps.coalesce)]),
    (some "io", .object [
      (some "max_fetch_bytes", .ofWord config.io.fetchBytes),
      (some "max_table_bytes", .ofWord config.io.tableBytes)])]

def toText (config : Config) : String := String.ofList (config.toJson.pretty 0)

end Config
end ElfLens
