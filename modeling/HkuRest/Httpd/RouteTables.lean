import HkuRest.Httpd.RateLimit
import HkuRest.Httpd.Router
import Mathlib.Data.List.Basic
import Mathlib.Data.List.TakeWhile

/-! Route tables: which route of a table answers, and what becomes of that when routes are added.
The whitelist of the rate limiter reads the same patterns, but not the same part of the target. -/

namespace Hku

namespace Router

variable {router more : Router} {method target path : Bytes} {handler : HandlerFunc}

/-- The table after these registrations. -/
def registerAll (router more : Router) : Router :=
  more.foldl (fun router route => router.registerHandler route.1.method route.1.path route.2) router

theorem registerAll_eq (router more : Router) : registerAll router more = router ++ more := by
  induction more generalizing router with
  | nil => simp [registerAll]
  | cons route more ih =>
    have first : registerAll router (route :: more) =
        registerAll (router.registerHandler route.1.method route.1.path route.2) more := rfl
    rw [first, ih, registerHandler, List.append_assoc]
    rfl

/-- There is a route for this very path. -/
def HasExact (router : Router) (method path : Bytes) : Prop :=
  ∃ route ∈ router, RouteKey.isExact route.1 method path = true

/-- Its handler is that of the earliest exact route, whatever wildcards there are. -/
theorem findHandler_exact {before after : Router} {route : RouteKey × HandlerFunc}
    (exact : RouteKey.isExact route.1 method (pathOnly target) = true)
    (earliest : ¬ HasExact before method (pathOnly target)) :
    findHandler (before ++ route :: after) method target = some route.2 := by
  have none : before.find? (fun route => RouteKey.isExact route.1 method (pathOnly target)) = none := by
    rw [List.find?_eq_none]
    intro other member found
    exact earliest ⟨other, member, found⟩
  simp only [findHandler, List.find?_append, none, Option.none_or, List.find?_cons, exact]

theorem findHandler_append_exact (router more : Router)
    (exact : HasExact router method (pathOnly target)) :
    findHandler (router ++ more) method target = findHandler router method target := by
  obtain ⟨route, member, matched⟩ := exact
  have found : (router.find? fun route =>
      RouteKey.isExact route.1 method (pathOnly target)).isSome = true :=
    List.find?_isSome.mpr ⟨route, member, matched⟩
  obtain ⟨first, found⟩ := Option.isSome_iff_exists.mp found
  simp only [findHandler, List.find?_append, found, Option.some_or]

/-- A wildcard gives way to exact routes only. -/
theorem findHandler_append_wildcard (router more : Router)
    (found : findHandler router method target = some handler)
    (unmatched : ¬ HasExact more method (pathOnly target)) :
    findHandler (router ++ more) method target = some handler := by
  have none : more.find? (fun route => RouteKey.isExact route.1 method (pathOnly target)) = none := by
    rw [List.find?_eq_none]
    intro other member exact
    exact unmatched ⟨other, member, exact⟩
  simp only [findHandler, List.find?_append, none, Option.or_none] at found ⊢
  cases exact : router.find? fun route => RouteKey.isExact route.1 method (pathOnly target) with
  | some route =>
    rw [exact] at found
    exact found
  | none =>
    rw [exact] at found
    obtain ⟨route, wildcard, same⟩ := Option.map_eq_some_iff.mp found
    simp only [wildcard, Option.some_or, Option.map_some, same]

/-- What the table of these registrations answers, in this order, and what it goes on answering
when it grows. -/
structure Lawful (routes : Router) (method target : Bytes) : Prop where
  path : ∀ other, pathOnly other = pathOnly target →
    findHandler (registerAll [] routes) method other = findHandler (registerAll [] routes) method target
  earliest : ∀ before route after, routes = before ++ route :: after →
    route.1.method = method → route.1.path = pathOnly target →
      ¬ HasExact before method (pathOnly target) →
        findHandler (registerAll [] routes) method target = some route.2
  stable : ∀ more, HasExact routes method (pathOnly target) →
    findHandler (registerAll (registerAll [] routes) more) method target =
      findHandler (registerAll [] routes) method target
  wildcard : ∀ more, ¬ HasExact routes method (pathOnly target) →
    findHandler (registerAll [] routes) method target ≠ none →
      findHandler (registerAll (registerAll [] routes) more) method target ≠
          findHandler (registerAll [] routes) method target →
        HasExact more method (pathOnly target)

/-- All tables do. -/
theorem routes_lawful (routes : Router) (method target : Bytes) : Lawful routes method target where
  path other same := by
    simp only [findHandler, same]
  earliest before route after split named path first := by
    have exact : RouteKey.isExact route.1 method (pathOnly target) = true := by
      simp [RouteKey.isExact, named, path]
    rw [registerAll_eq, List.nil_append, split]
    exact findHandler_exact exact first
  stable more exact := by
    rw [registerAll_eq (registerAll [] routes), registerAll_eq [] routes, List.nil_append]
    exact findHandler_append_exact routes more exact
  wildcard more _ answered changed := by
    by_contra unmatched
    obtain ⟨handler, found⟩ := Option.ne_none_iff_exists'.mp answered
    rw [registerAll_eq (registerAll [] routes)] at changed
    exact changed ((findHandler_append_wildcard _ more found unmatched).trans found.symm)

end Router

namespace RateLimiter

open Router (pathOnly findHandler registerHandler)

variable {entry pattern endpoint target method : Bytes} {handler : HandlerFunc}

/-- The test of one entry, as far as it is defined: an empty one has no `back()`. -/
def entryMatches (entry endpoint : Bytes) : Option Bool :=
  if endpoint = entry then some true
  else entry.getLast?.map fun last => last = 0x2a && Bytes.hasPrefix entry.dropLast endpoint

def isEndpointWhitelisted : List Bytes → Bytes → Option Bool
  | [], _ => some false
  | entry :: rest, endpoint =>
      match entryMatches entry endpoint with
      | some false => isEndpointWhitelisted rest endpoint
      | verdict => verdict

theorem entryMatches_eq {verdict : Bool} (defined : entryMatches entry endpoint = some verdict) :
    (endpoint == entry ||
      (entry.getLast? == some 42 && Bytes.hasPrefix (entry.take (entry.length - 1)) endpoint)) =
        verdict := by
  unfold entryMatches at defined
  split at defined
  · rename_i same
    cases defined
    simp [same]
  · rename_i other
    obtain ⟨last, found, rfl⟩ := Option.map_eq_some_iff.mp defined
    rw [found, beq_false_of_ne other, Bool.false_or, List.dropLast_eq_take]
    rfl

theorem isEndpointWhitelisted_eq {config : RateLimitConfig} {verdict : Bool}
    (defined : isEndpointWhitelisted config.endpointWhitelist endpoint = some verdict) :
    config.isEndpointWhitelisted endpoint = verdict := by
  unfold RateLimitConfig.isEndpointWhitelisted
  generalize config.endpointWhitelist = entries at defined ⊢
  induction entries with
  | nil =>
    cases defined
    rfl
  | cons entry rest ih =>
    rw [isEndpointWhitelisted] at defined
    rw [List.any_cons]
    cases first : entryMatches entry endpoint with
    | none =>
      rw [first] at defined
      cases defined
    | some matched =>
      rw [entryMatches_eq first]
      rw [first] at defined
      cases matched with
      | false => exact ih defined
      | true =>
        cases defined
        rfl

/-- Where the two differ there is a query: in the target, or in the pattern of a prefix. -/
def ReadAlike (pattern target : Bytes) : Prop :=
  (pattern = [] → target = []) ∧
    (0x3f ∈ target →
      if pattern.getLast? = some 0x2a then ¬ (0x3f ∈ pattern ∧ pattern.dropLast <+: target)
      else pattern ≠ target ∧ pattern ≠ pathOnly target)

theorem findHandler_single (method pattern target : Bytes) (handler : HandlerFunc) :
    (findHandler (registerHandler [] method pattern handler) method target).isSome =
      (pattern = pathOnly target ||
        (pattern.getLast? = some 0x2a && Bytes.hasPrefix pattern.dropLast (pathOnly target))) := by
  by_cases exact : pattern = pathOnly target
  · simp [findHandler, registerHandler, Router.RouteKey.isExact, exact]
  · cases wildcard : (pattern.getLast? = some 0x2a &&
        Bytes.hasPrefix pattern.dropLast (pathOnly target) : Bool) <;>
      simp [findHandler, registerHandler, Router.RouteKey.isExact, Router.RouteKey.isWildcard, exact,
        wildcard]

theorem pathOnly_begins (target : Bytes) : pathOnly target <+: target := List.takeWhile_prefix _

theorem query_not_mem_pathOnly (target : Bytes) : 0x3f ∉ pathOnly target := by
  intro member
  simpa using List.all_eq_true.mp (List.all_takeWhile (l := target)) _ member

theorem prefix_pathOnly_iff (begins : entry <+: target) : entry <+: pathOnly target ↔ 0x3f ∉ entry := by
  constructor
  · intro inPath member
    exact query_not_mem_pathOnly target (inPath.subset member)
  · intro plain
    obtain ⟨rest, rfl⟩ := begins
    have same : ∀ byte ∈ entry, decide (byte ≠ 0x3f) = true := by
      intro byte member
      simpa using ne_of_mem_of_not_mem member plain
    rw [pathOnly, List.takeWhile_append_of_pos same]
    exact List.prefix_append _ _

theorem pathOnly_eq (plain : 0x3f ∉ target) : pathOnly target = target :=
  List.takeWhile_eq_self_iff.mpr fun _ member => decide_eq_true (ne_of_mem_of_not_mem member plain)

theorem pathOnly_ne (queried : 0x3f ∈ target) : pathOnly target ≠ target := by
  intro same
  rw [← same] at queried
  exact query_not_mem_pathOnly target queried

theorem isEndpointWhitelisted_single (pattern target : Bytes) :
    isEndpointWhitelisted [pattern] target = entryMatches pattern target := by
  rw [isEndpointWhitelisted]
  cases entryMatches pattern target with
  | none => rfl
  | some verdict => cases verdict <;> rfl

theorem entryMatches_wildcard (pre target : Bytes) :
    entryMatches (pre ++ [0x2a]) target = some (decide (pre <+: target)) := by
  unfold entryMatches
  split
  · rename_i same
    simp [same]
  · simp [Bytes.hasPrefix, ← List.isPrefixOf_iff_prefix]

theorem findHandler_wildcard (pre method target : Bytes) (handler : HandlerFunc) :
    (findHandler (registerHandler [] method (pre ++ [0x2a]) handler) method target).isSome =
      decide (pre <+: pathOnly target) := by
  rw [findHandler_single]
  by_cases same : pre ++ [0x2a] = pathOnly target
  · simp [← same]
  · simp [same, Bytes.hasPrefix, ← List.isPrefixOf_iff_prefix]

theorem readAlike_wildcard (pre target : Bytes) :
    ReadAlike (pre ++ [0x2a]) target ↔ (0x3f ∈ target → ¬ (0x3f ∈ pre ∧ pre <+: target)) := by
  have within : 0x3f ∈ pre ++ [0x2a] ↔ 0x3f ∈ pre := by simp
  simp [ReadAlike, within]

theorem readAlike_plain {pre : Bytes} {last : UInt8} (plain : last ≠ 0x2a) (target : Bytes) :
    ReadAlike (pre ++ [last]) target ↔
      (0x3f ∈ target → pre ++ [last] ≠ target ∧ pre ++ [last] ≠ pathOnly target) := by
  simp [ReadAlike, plain]

theorem prefix_agrees_iff (pre target : Bytes) :
    (pre <+: target ↔ pre <+: pathOnly target) ↔
      (0x3f ∈ target → ¬ (0x3f ∈ pre ∧ pre <+: target)) := by
  constructor
  · rintro same - ⟨queried, begins⟩
    exact (prefix_pathOnly_iff begins).mp (same.mp begins) queried
  · intro alike
    refine ⟨fun begins => ?_, fun inPath => inPath.trans (pathOnly_begins target)⟩
    by_cases queried : 0x3f ∈ target
    · exact (prefix_pathOnly_iff begins).mpr fun within => alike queried ⟨within, begins⟩
    · rwa [pathOnly_eq queried]

theorem whole_agrees_iff (pattern target : Bytes) :
    (pattern = target ↔ pattern = pathOnly target) ↔
      (0x3f ∈ target → pattern ≠ target ∧ pattern ≠ pathOnly target) := by
  constructor
  · intro same queried
    have apart := pathOnly_ne queried
    refine ⟨fun isTarget => ?_, fun isPath => ?_⟩
    · exact apart ((same.mp isTarget).symm.trans isTarget)
    · exact apart (isPath.symm.trans (same.mpr isPath))
  · intro alike
    by_cases queried : 0x3f ∈ target
    · exact iff_of_false (alike queried).1 (alike queried).2
    · rw [pathOnly_eq queried]

/-- The rate limiter, with one pattern, exempts the targets that a router with the one route
finds a handler for exactly when the pattern is read alike. -/
theorem whitelist_reads_routes_iff (pattern method target : Bytes) (handler : HandlerFunc) :
    isEndpointWhitelisted [pattern] target =
        some (findHandler (registerHandler [] method pattern handler) method target).isSome ↔
      ReadAlike pattern target := by
  rw [isEndpointWhitelisted_single]
  rcases List.eq_nil_or_concat' pattern with rfl | ⟨pre, last, rfl⟩
  · cases target with
    | nil => simp [entryMatches, findHandler_single, ReadAlike, pathOnly]
    | cons byte rest => simp [entryMatches, ReadAlike]
  by_cases wildcard : last = 0x2a
  · subst wildcard
    rw [entryMatches_wildcard, findHandler_wildcard, Option.some.injEq, decide_eq_decide,
      readAlike_wildcard]
    exact prefix_agrees_iff pre target
  · have whole : entryMatches (pre ++ [last]) target = some (decide (pre ++ [last] = target)) := by
      by_cases same : target = pre ++ [last]
      · simp [entryMatches, same]
      · simp [entryMatches, same, Ne.symm same, wildcard]
    have route : (findHandler (registerHandler [] method (pre ++ [last]) handler) method target).isSome =
        decide (pre ++ [last] = pathOnly target) := by
      rw [findHandler_single]
      simp [wildcard]
    rw [whole, route, Option.some.injEq, decide_eq_decide, readAlike_plain wildcard]
    exact whole_agrees_iff (pre ++ [last]) target

def nothing : HandlerFunc := fun _ _ => .function id false

/-- With a query the target has a route but is not on the whitelist; and an empty entry is not read
at all. -/
theorem query_not_whitelisted :
    (¬ ∀ (pattern method target : Bytes) (handler : HandlerFunc),
      isEndpointWhitelisted [pattern] target =
        some (findHandler (registerHandler [] method pattern handler) method target).isSome) ∧
      isEndpointWhitelisted [[]] (Bytes.ascii "/health") = none := by
  constructor
  · intro alike
    have health := alike (Bytes.ascii "/health") (Bytes.ascii "GET") (Bytes.ascii "/health?full") nothing
    have listed : isEndpointWhitelisted [Bytes.ascii "/health"] (Bytes.ascii "/health?full") =
        some false := by
      decide +kernel
    rw [listed, findHandler_single] at health
    revert health
    decide +kernel
  · decide +kernel

end RateLimiter

end Hku
