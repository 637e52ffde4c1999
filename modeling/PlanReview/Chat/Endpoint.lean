import PlanReview.Text.Lines
import PlanReview.Text.Search

/-!
# Endpoints

The address that conversations are sent to is worked out from a base URL. The base may be a bare
host, the start of the path, or the whole address already; query and fragment are dropped.
-/

namespace PlanReview.Chat.Endpoint

/-- A URL that begins with a scheme of the web, the slashes at its end aside. -/
def normalize (base : String) : String :=
  let text := (Text.strip base).toList
  let text :=
    if "http://".toList.isPrefixOf text || "https://".toList.isPrefixOf text then text
    else "http://".toList ++ text
  String.ofList (Text.dropEndWhile (· == '/') text)

/-- Whether a character ends the host of a URL. -/
def endsHost (c : Char) : Bool :=
  c == '/' || c == '?' || c == '#'

/-- The scheme of a URL, and what follows its colon. -/
def splitScheme (url : List Char) : List Char × List Char :=
  (url.takeWhile (· != ':'), (url.dropWhile (· != ':')).drop 1)

/-- The host of a URL without its scheme, and what follows. -/
def splitHost : List Char → List Char × List Char
  | '/' :: '/' :: rest => (rest.takeWhile (!endsHost ·), rest.dropWhile (!endsHost ·))
  | rest => ([], rest)

/-- The text before the last slash, with it, and the text after it. -/
def splitLastSlash (text : List Char) : List Char × List Char :=
  let tail := (text.reverse.takeWhile (· != '/')).reverse
  (text.take (text.length - tail.length), tail)

/-- The path of a URL without its host : up to a fragment, a query, or the parameters of the last
segment. -/
def pathOf (rest : List Char) : List Char :=
  let (directory, last) :=
    splitLastSlash ((rest.takeWhile (· != '#')).takeWhile (· != '?'))
  directory ++ last.takeWhile (· != ';')

/-- The end of every address. -/
def ending : List Char := "/chat/completions".toList

/-- The path that conversations are sent to, below a path. -/
def completed (path : List Char) : List Char :=
  let path := Text.dropEndWhile (· == '/') path
  if ending.isSuffixOf path then path
  else if (Text.splitAt '/' path).contains "v1".toList then path ++ ending
  else path ++ "/v1".toList ++ ending

/-- Whether the brackets of a host belong together. -/
def bracketsMatch (host : List Char) : Bool :=
  host.contains '[' == host.contains ']'

/-- Whether a character is left out of an address. -/
def isDropped (c : Char) : Bool :=
  c == '\t' || c == '\n' || c == '\r'

/-- The address for a normalized base URL; nothing if its host is malformed. -/
def address? (base : String) : Option String :=
  let (scheme, rest) := splitScheme (base.toList.filter (!isDropped ·))
  let (host, rest) := splitHost rest
  if bracketsMatch host then
    some (String.ofList (scheme ++ "://".toList ++ host ++ completed (pathOf rest)))
  else none

end PlanReview.Chat.Endpoint
