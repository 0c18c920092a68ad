import DumpImport.Web.Url

namespace DumpImport.Web

structure Request where
  method : String
  url : Url
  contentType : Option String
  body : String

namespace Request

def userAgent : String := "Historic Data Loader"

end Request

inductive Reply where
  | answer (status : Nat) (body : Bytes)
  | dropped

inductive Failure where
  | unsendable (e : Url.Error)
  | unanswered (u : Url)

def Failure.message : Failure → String
  | .unsendable e => e.message
  | .unanswered u => "error sending request for url (" ++ u.text ++ ")"

end DumpImport.Web
