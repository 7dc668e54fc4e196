import ElfLens.Image.Basic
import ElfLens.Mangling

set_option autoImplicit false

namespace ElfLens

/-- Which table of an image a symbol comes from. -/
inductive SymbolSource where
  | dynamic
  | static
  deriving DecidableEq, Repr

structure SymbolView where
  image : Image
  source : SymbolSource
  symbol : Symbol

namespace SymbolView

def name (view : SymbolView) : Except Fault String :=
  match view.source with
  | .dynamic =>
    match view.image.linkage? with
    | none => .error .noStrings
    | some linkage => linkage.symbols.name view.symbol
  | .static =>
    match view.image.statics? with
    | none => .error .noStrings
    | some statics => statics.name view.symbol

def demangled? (view : SymbolView) : Option String :=
  view.name.toOption.bind fun name => (Mangling.demangle? name).map (·.1)

/-- The GOT slot of the symbol: data is reached through the general relocations, and everything else
through those of the PLT. -/
def gotSlot? (view : SymbolView) : Option UInt64 := do
  let linkage ← view.image.linkage?
  let name ← view.name.toOption
  if name.isEmpty then none
  else if view.symbol.isData then linkage.gotEntry? name
  else linkage.gotPltEntry? name

/-- The PLT stub of the symbol; data has none. -/
def pltStub? (view : SymbolView) : Option UInt64 :=
  if view.symbol.isData then none else view.gotSlot?.bind view.image.stubAddress?

/-- The address at which a caller finds the symbol. -/
def address? (view : SymbolView) : Option UInt64 :=
  if view.symbol.sectionIndex = SectionIndex.absolute then some view.symbol.value
  else if view.symbol.isUndefined then
    if view.symbol.isData then view.gotSlot? else view.pltStub?
  else if view.image.header.isSharedObject then
    Word.plus? view.image.space.base view.symbol.value
  else some view.symbol.value

/-- Two symbols of one image are the same entry of the same table. -/
def isSame (a b : SymbolView) : Bool := a.source = b.source ∧ a.symbol = b.symbol

end SymbolView

namespace Image

def dynamicView (image : Image) (symbol : Symbol) : SymbolView := ⟨image, .dynamic, symbol⟩

def staticView (image : Image) (symbol : Symbol) : SymbolView := ⟨image, .static, symbol⟩

def dynamicSymbol? (image : Image) (index : Nat) : Option SymbolView := do
  let linkage ← image.linkage?
  (linkage.symbols.symbol? index).map image.dynamicView

def dynamicSymbols (image : Image) : List SymbolView :=
  ((image.linkage?.map (·.symbols.symbols)).getD []).map image.dynamicView

def findDynamic? (image : Image) (name : String) : Option SymbolView := do
  let linkage ← image.linkage?
  (linkage.symbols.find? name).map image.dynamicView

/-- The first dynamic symbol of a name, with no use made of the hash chains. -/
def scanDynamic? (image : Image) (name : String) : Option SymbolView := do
  let linkage ← image.linkage?
  (linkage.symbols.scan? name).map image.dynamicView

def staticSymbols (image : Image) : List SymbolView :=
  ((image.statics?.map (·.symbols)).getD []).map image.staticView

def findStatic? (image : Image) (name : String) : Option SymbolView := do
  let statics ← image.statics?
  (statics.find? name).map image.staticView

/-- The address at which a caller finds the dynamic symbol of a name. -/
def symbolAddress? (image : Image) (name : String) : Option UInt64 :=
  (image.findDynamic? name).bind (·.address?)

end Image
end ElfLens
