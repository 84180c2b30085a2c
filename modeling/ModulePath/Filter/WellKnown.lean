import ModulePath.Filter.Build

/-!
# Well-known filters

Filters around the directory `META-INF` of a module and the service declarations in it.
-/

set_option autoImplicit false

namespace ModulePath

/-- The directory that describes a module. -/
def metaInf : String := "META-INF"

/-- The directory of service declarations. -/
def metaInfServices : String := "META-INF/services"

namespace Filter

/-- `META-INF` itself. -/
def metaInfItself : Filter := equals metaInf

/-- Everything under `META-INF`. -/
def metaInfChildren : Filter := childOf metaInf

/-- The service declarations with their directory. -/
def services : Filter := selfOrChildOf metaInfServices

/-- The rules that hide `META-INF` and everything under it. -/
def hideMetaInf : List (Filter × Bool) := [(metaInfChildren, false), (metaInfItself, false)]

/-- Everything but `META-INF` and what is under it. -/
def defaultImport : Filter := ((Builder.new true).addAll hideMetaInf).create

/-- Everything but `META-INF` and what is under it, the service declarations excepted. -/
def defaultImportWithServices : Filter :=
  ((((Builder.new true).add (equals metaInfServices) true).add
    (childOf metaInfServices) true).addAll hideMetaInf).create

/-- Everything but `META-INF` itself. -/
def withoutMetaInfItself : Filter :=
  (((Builder.new true).add metaInfChildren true).add metaInfItself false).create

end Filter

end ModulePath
