import TapeIL.Options
import TapeIL.Yaml.Reading

/-!
Profiles: documents that hold defaults for options. A profile says nothing about the options that
it leaves out.
-/

namespace TapeIL

structure Profile where
  name : Option Bytes := none
  version : Option Bytes := none
  cells : Option Int := none
  intercept : Option Bool := none
deriving DecidableEq, Repr, Inhabited

/-- A profile that cannot be read. -/
structure ProfileError where
  cause : Yaml.ReadError
deriving DecidableEq, Repr, Inhabited

def ProfileError.message (e : ProfileError) : Bytes :=
  text "failed to parse profile: " ++ e.cause.message

namespace Profile

/-- Reads a profile. A name of no field is a problem. -/
def reader : Yaml.Node → Yaml.Reading (Option Profile) :=
  Yaml.Reading.record (text "config.Profile") true
    (fun name =>
      if name = text "name" then some fun p node => do
        return { p with name := ← Yaml.Reading.string node }
      else if name = text "version" then some fun p node => do
        return { p with version := ← Yaml.Reading.string node }
      else if name = text "cell_count" then some fun p node => do
        return { p with cells := ← Yaml.Reading.integer node }
      else if name = text "intercept_input" then some fun p node => do
        return { p with intercept := ← Yaml.Reading.boolean node }
      else none)
    {}

def parse (source : Bytes) : Except ProfileError Profile :=
  (Yaml.read reader {} source).mapError ProfileError.mk

/-- Options with those of a profile in place of their own. -/
def apply (p : Profile) (o : Options) : Options :=
  { name := p.name.getD o.name
    version := p.version.getD o.version
    cells := p.cells.getD o.cells
    intercept := p.intercept.getD o.intercept }

end Profile
end TapeIL
