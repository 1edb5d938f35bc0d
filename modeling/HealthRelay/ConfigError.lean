import HealthRelay.Duration
import HealthRelay.OsError
import HealthRelay.Text.Quoted

/-!
# Configuration errors

Every way in which a configuration, or a value in it, can be refused, and the reason given for it.
-/

namespace HealthRelay

/-- Why a file could not be read as a text. -/
inductive FileFault where
  | notFound
  | isDirectory
  | notDirectory
  | notUtf8
  | other (reason : String)
deriving DecidableEq, Repr

def FileFault.reason : FileFault → String
  | .notFound => OsError.text ⟨2⟩
  | .isDirectory => OsError.text ⟨21⟩
  | .notDirectory => OsError.text ⟨20⟩
  | .notUtf8 => "stream did not contain valid UTF-8"
  | .other reason => reason

/-- The longest accepted reporting interval: one day. -/
def maxReportingInterval : Duration := .ofSecs 86400

/-- A refused configuration, or a refused value of one. -/
inductive ConfigError where
  | notDuration (text : String)
  /-- An address without a colon. -/
  | notHostPort (text : String)
  /-- An address with nothing before its last colon. -/
  | emptyHost (text : String)
  /-- An address whose port is no number below 65536. -/
  | invalidPort (text : String)
  /-- A setting that no layer gives. -/
  | missing (setting : String)
  /-- A reporting interval of no time. -/
  | zeroInterval
  /-- A reporting interval above the longest one. -/
  | intervalTooLong (interval : Duration)
  /-- An api key that cannot stand in a header. -/
  | invalidApiKey
  /-- A file that could not be read. -/
  | unreadable (path : String) (fault : FileFault)
  /-- A file that is not written in the configuration language. -/
  | malformed
deriving DecidableEq, Repr

def ConfigError.reason : ConfigError → String
  | .notDuration text => "invalid duration: " ++ Text.quote text
  | .notHostPort text => "address " ++ Text.quote text ++ " is not host:port"
  | .emptyHost text => "address " ++ Text.quote text ++ " has an empty host"
  | .invalidPort text => "address " ++ Text.quote text ++ " has an invalid port"
  | .missing setting => setting ++ " is required"
  | .zeroInterval => "reporting_interval must be greater than zero"
  | .intervalTooLong interval =>
    "reporting_interval must be at most " ++ maxReportingInterval.text ++ ", got " ++ interval.text
  | .invalidApiKey => "invalid api key: failed to parse header value"
  | .unreadable path fault => "read " ++ path ++ ": " ++ fault.reason
  | .malformed => "TOML parse error"

end HealthRelay
