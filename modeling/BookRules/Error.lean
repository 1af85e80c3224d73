/-!
# Errors

Every error is a cause; its wording is in one place.  Rules never fail towards
their callers: a fragment with an error selects nothing.  The causes are
visible where a rule is read on its own.

Commands fail where a source cannot be used, an address cannot be read or a page
cannot be fetched.
-/

namespace BookRules

/-- Why a URL cannot be read. -/
inductive UrlFault
  | emptyHost
  | badInternationalName
  | badPort
  | badIPv4
  | badIPv6
  | badDomainCharacter
  | relativeWithoutBase
  | relativeWithOpaqueBase
  deriving DecidableEq, Repr

def UrlFault.message : UrlFault → String
  | .emptyHost => "empty host"
  | .badInternationalName => "invalid international domain name"
  | .badPort => "invalid port number"
  | .badIPv4 => "invalid IPv4 address"
  | .badIPv6 => "invalid IPv6 address"
  | .badDomainCharacter => "invalid domain character"
  | .relativeWithoutBase => "relative URL without a base"
  | .relativeWithOpaqueBase => "relative URL with a cannot-be-a-base base"

/-- What is wrong with a JSON path. -/
inductive PathFault
  | expectedStep
  | emptyName
  | unclosedBracket
  | emptyBrackets
  | unsupportedFilter
  deriving DecidableEq, Repr

def PathFault.message : PathFault → String
  | .expectedStep => "expected '.' or '['"
  | .emptyName => "empty member name"
  | .unclosedBracket => "unclosed '['"
  | .emptyBrackets => "empty brackets"
  | .unsupportedFilter => "unsupported filter"

/-- Why a rule cannot be used. -/
inductive RuleError
  /-- A JSON path, with the part in which the fault lies. -/
  | path (body : String) (fault : PathFault)
  /-- A row rule without a pattern. -/
  | emptyRowPattern
  /-- An XPath without any text. -/
  | emptyXPath (text : String)
  /-- An XPath that only extracts. -/
  | xpathWithoutElements (text : String)
  /-- A step of an XPath that has no selector. -/
  | xpathStep (step text : String)
  | invalidSelector (selector : String)
  | invalidRegex (pattern : String)
  | invalidUrl (fault : UrlFault)
  deriving DecidableEq, Repr

def RuleError.message : RuleError → String
  | .path body fault => "Malformed rule: JSONPath '" ++ body ++ "': " ++ fault.message
  | .emptyRowPattern => "Malformed rule: empty all-in-one pattern"
  | .emptyXPath text => "Unsupported mode: empty XPath: " ++ text
  | .xpathWithoutElements text => "Unsupported mode: no element steps in " ++ text
  | .xpathStep step text => "Unsupported mode: XPath step '" ++ step ++ "' in " ++ text
  | .invalidSelector selector => "Invalid selector: " ++ selector
  | .invalidRegex pattern => "Invalid regex: " ++ pattern
  | .invalidUrl fault => "Invalid URL: " ++ fault.message

/-- Why a source cannot be used. -/
inductive SourceFault
  /-- A document that holds neither a source nor a list of sources. -/
  | noSources
  /-- A source without an address. -/
  | noAddress (name : String)
  | badAddress (name : String) (fault : UrlFault)
  /-- A source that cannot be searched. -/
  | noSearch (name : String)
  deriving DecidableEq, Repr

def SourceFault.message : SourceFault → String
  | .noSources => "expected a source object or an array of sources"
  | .noAddress name => "'" ++ name ++ "' has no bookSourceUrl"
  | .badAddress name fault => "'" ++ name ++ "': bookSourceUrl " ++ fault.message
  | .noSearch name => "'" ++ name ++ "' has no searchUrl"

/-- Why a command fails. -/
inductive Fault
  /-- A page was answered with a status that is no success. -/
  | status (address : String) (code : Nat)
  | source (fault : SourceFault)
  /-- A text that is no JSON, or not of the form that is needed. -/
  | json
  /-- A file that cannot be read. -/
  | file
  | url (fault : UrlFault)
  /-- No source fits a name or an address. -/
  | noSource (wanted : String)
  deriving DecidableEq, Repr

def Fault.message : Fault → String
  | .status address code => "HTTP " ++ toString code ++ " from " ++ address
  | .source fault => "Invalid book source: " ++ fault.message
  | .json => "JSON error"
  | .file => "IO error"
  | .url fault => "Invalid URL: " ++ (RuleError.invalidUrl fault).message
  | .noSource wanted => "No book source matches '" ++ wanted ++ "'"

end BookRules
