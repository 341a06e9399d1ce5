import Roomcast.Http.Head

/-!
# Written heads

Heads as a client writes them: every line ends with a carriage return and a line feed, one space
stands between the parts of the first line, and a colon and a space follow the name of a header.
-/

namespace Roomcast.Http.Head

def lineEnd : String := "\r\n"

/-- The bytes of a head with a method, a target and some headers. -/
def bytes (method target : String) (headers : List (String × String)) : List UInt8 :=
  let headerLines := headers.map fun h => h.1 ++ ": " ++ h.2 ++ lineEnd
  Text.Utf8.encode
    (method ++ " " ++ target ++ " HTTP/1.1" ++ lineEnd ++ String.join headerLines ++ lineEnd)

end Roomcast.Http.Head
