import HkuRest.Httpd.HttpHandle

/-! The HTTP route table: exact paths win over wildcards, earlier registrations
over later ones, and the query part of a target never matters. -/

namespace Hku

/-- A registered handler: a handler class made anew for each request, whose
behaviour may depend on the request and on when it runs, or a bare coroutine. -/
inductive Handler
  | handle (handle : Handle)
  | function (change : Response → Response) (throws : Bool)

abbrev HandlerFunc := Nat → Request → Handler

structure RouteKey where
  method : Bytes
  path : Bytes
  deriving DecidableEq, Repr

abbrev Router := List (RouteKey × HandlerFunc)

namespace Router

def registerHandler (router : Router) (method path : Bytes) (handler : HandlerFunc) : Router :=
  router ++ [(⟨method, path⟩, handler)]

/-- The target up to the first `?`. -/
def pathOnly (target : Bytes) : Bytes := target.takeWhile (· ≠ 0x3f)

def RouteKey.isExact (key : RouteKey) (method path : Bytes) : Bool :=
  key.method = method && key.path = path

/-- A path that ends in `*` matches every path with what stands before it. -/
def RouteKey.isWildcard (key : RouteKey) (method path : Bytes) : Bool :=
  key.method = method && key.path.getLast? = some 0x2a && Bytes.hasPrefix key.path.dropLast path

def findHandler (router : Router) (method target : Bytes) : Option HandlerFunc :=
  match router.find? fun route => RouteKey.isExact route.1 method (pathOnly target) with
  | some route => some route.2
  | none =>
      (router.find? fun route => RouteKey.isWildcard route.1 method (pathOnly target)).map Prod.snd

end Router

/-- The routes of upgraded connections, by path alone. -/
abbrev WebSocketRouter (HandleFactory : Type) := List (Bytes × HandleFactory)

namespace WebSocketRouter

variable {HandleFactory : Type}

def registerHandler (router : WebSocketRouter HandleFactory) (path : Bytes) (factory : HandleFactory) :
    WebSocketRouter HandleFactory :=
  router ++ [(path, factory)]

def findHandler (router : WebSocketRouter HandleFactory) (path : Bytes) : Option HandleFactory :=
  (router.find? fun route => route.1 = path).map Prod.snd

end WebSocketRouter

end Hku
