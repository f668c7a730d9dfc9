import NamedQuery.Error
import NamedQuery.Logged

namespace NamedQuery

/-- How statements are logged. A longest text of zero sets no limit. -/
structure LogSettings where
  enabled : Bool
  level : LogLevel
  longest : Nat
  showParams : Bool
  deriving DecidableEq, Repr

namespace LogSettings

def default : LogSettings := ⟨true, .debug, 500, true⟩

instance : Inhabited LogSettings := ⟨default⟩

def withLevel (s : LogSettings) (level : LogLevel) : LogSettings := { s with level := level }

def withLongest (s : LogSettings) (longest : Nat) : LogSettings := { s with longest := longest }

def unlimited (s : LogSettings) : LogSettings := s.withLongest 0

def disabled (s : LogSettings) : LogSettings := { s with enabled := false }

def hidingParams (s : LogSettings) : LogSettings := { s with showParams := false }

end LogSettings

structure PageSettings where
  defaultRows : Int64
  deriving DecidableEq, Repr

namespace PageSettings

def default : PageSettings := ⟨20⟩

instance : Inhabited PageSettings := ⟨default⟩

/-- A page has one row at least. -/
def validate (s : PageSettings) : Except Error Unit :=
  if s.defaultRows < 1 then .error (.config (.pageTooSmall s.defaultRows)) else .ok ()

end PageSettings

/-- The settings of all stages of a query. -/
structure Settings where
  log : LogSettings
  pages : PageSettings
  deriving DecidableEq, Repr

def Settings.default : Settings := ⟨.default, .default⟩

end NamedQuery
