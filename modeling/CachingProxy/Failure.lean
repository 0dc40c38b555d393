import CachingProxy.Http.Status

/-!
# Causes of failure

Each kind of failure is a constructor; its wording is in one function of the type.  A failure that
wraps another keeps it as its cause.
-/

set_option autoImplicit false

namespace CachingProxy

inductive SystemError where
  | notFound
  | notADirectory
  | isADirectory
  | nameTooLong
  | addressUnavailable
  | addressInUse
  | notUtf8
  | other (text : String)
  deriving DecidableEq

def SystemError.message : SystemError → String
  | .notFound => "No such file or directory (os error 2)"
  | .notADirectory => "Not a directory (os error 20)"
  | .isADirectory => "Is a directory (os error 21)"
  | .nameTooLong => "File name too long (os error 36)"
  | .addressUnavailable => "Cannot assign requested address (os error 99)"
  | .addressInUse => "Address already in use (os error 98)"
  | .notUtf8 => "stream did not contain valid UTF-8"
  | .other text => text

inductive StorageError where
  | io (cause : SystemError)
  | unknownDomain (domain : String)
  | config (text : String)
  deriving DecidableEq

def StorageError.message : StorageError → String
  | .io cause => "IO error: " ++ cause.message
  | .unknownDomain domain => "Unknown domain: " ++ domain
  | .config text => "Configuration error: " ++ text

/-- How a document fails to be read: it is not well formed, it ends too early, or it is well formed
so far and holds something else than what is wanted. -/
inductive JsonError where
  | malformed
  | truncated
  | mismatched
  deriving DecidableEq

inductive ProxyError where
  | io (cause : SystemError)
  | config (text : String)
  | originConnect (origin reason : String)
  | originTimeout (origin : String)
  | origin (text : String)
  | clientAborted
  | http (text : String)
  | json (cause : JsonError)
  | storage (cause : StorageError)
  | gateway (text : String)
  deriving DecidableEq

namespace ProxyError

def message : ProxyError → String
  | .io cause => "IO error: " ++ cause.message
  | .config text => "Configuration error: " ++ text
  | .originConnect address reason => "Origin connect to " ++ address ++ " failed: " ++ reason
  | .originTimeout address => "Origin connect to " ++ address ++ " timed out"
  | .origin text => "Origin error: " ++ text
  | .clientAborted => "Client connection aborted"
  | .http text => "HTTP error: " ++ text
  | .json _ => "JSON error"
  | .storage cause => "Storage error: " ++ cause.message
  | .gateway text => "Gateway error: " ++ text

/-- The status a client gets when its origin cannot answer: 503 after a time-out, 502 otherwise. -/
def gatewayStatus : ProxyError → Status
  | .originTimeout _ => 503
  | _ => 502

def causes : ProxyError → List String
  | .io cause => [cause.message]
  | .storage (.io cause) => [(StorageError.io cause).message, cause.message]
  | .storage cause => [cause.message]
  | _ => []

end ProxyError

end CachingProxy
