import Mathlib.Data.List.Nodup
import Mathlib.Logic.Function.Basic
import Mathlib.Order.Defs.PartialOrder

/-! Leases that lapse unless they are renewed. A table may drop a lease once it has lapsed, early, late
or never, and still tells which leases are in force. -/

namespace Leases

variable {Name Time : Type*}

/-- Whether a lease that was last renewed at one time has lapsed at another; once it has, it stays so. -/
structure Lapsing (Time : Type*) [LE Time] where
  lapsed : Time → Time → Bool
  stays : ∀ {renewed now later : Time}, now ≤ later → lapsed renewed now = true →
    lapsed renewed later = true

/-- All leases that were ever granted, and when each was last renewed, unless it was given back. -/
structure Book (Name Time : Type*) where
  granted : List Name
  renewed : Name → Option Time

namespace Book

def empty : Book Name Time := ⟨[], fun _ => none⟩

section

variable [LE Time]

def inForce (lapsing : Lapsing Time) (now : Time) (book : Book Name Time) (name : Name) : Bool :=
  (book.renewed name).any fun time => !lapsing.lapsed time now

def holders (lapsing : Lapsing Time) (now : Time) (book : Book Name Time) : List Name :=
  book.granted.filter (book.inForce lapsing now)

end

variable [DecidableEq Name]

def renew (name : Name) (now : Time) (book : Book Name Time) : Book Name Time :=
  { book with renewed := Function.update book.renewed name (some now) }

def grant (name : Name) (now : Time) (book : Book Name Time) : Book Name Time :=
  { book.renew name now with granted := book.granted ++ [name] }

def release (name : Name) (book : Book Name Time) : Book Name Time :=
  { book with renewed := Function.update book.renewed name none }

end Book

/-- What is held is as the book has it, and what is missing from it had lapsed or was given back. -/
structure Follows [LE Time] (lapsing : Lapsing Time) (now : Time) (held : Name → Option Time)
    (book : Book Name Time) : Prop where
  kept : ∀ name time, held name = some time → book.renewed name = some time
  dropped : ∀ name time, book.renewed name = some time → held name = none →
    lapsing.lapsed time now = true
  granted : ∀ name time, book.renewed name = some time → name ∈ book.granted
  once : book.granted.Nodup

variable [Preorder Time] {lapsing : Lapsing Time} {now later : Time}
  {held after : Name → Option Time} {book : Book Name Time} {name : Name}

namespace Follows

theorem empty (lapsing : Lapsing Time) (now : Time) :
    Follows lapsing now (fun _ => none) (Book.empty : Book Name Time) where
  kept := nofun
  dropped := nofun
  granted := nofun
  once := .nil

theorem mono (follows : Follows lapsing now held book) (ordered : now ≤ later) :
    Follows lapsing later held book :=
  { follows with
    dropped := fun name time renewed missing =>
      lapsing.stays ordered (follows.dropped name time renewed missing) }

theorem inForce_eq (follows : Follows lapsing now held book) (ordered : now ≤ later) (name : Name) :
    book.inForce lapsing later name = (held name).any fun time => !lapsing.lapsed time later := by
  unfold Book.inForce
  cases kept : held name with
  | some time => rw [follows.kept name time kept]
  | none =>
    cases renewed : book.renewed name with
    | none => rfl
    | some time => simp [lapsing.stays ordered (follows.dropped name time renewed kept)]

theorem drop (follows : Follows lapsing now held book)
    (drops : ∀ name, after name = held name ∨
      after name = none ∧ ∀ time, held name = some time → lapsing.lapsed time now = true) :
    Follows lapsing now after book :=
  { follows with
    kept := fun name time stored => by
      rcases drops name with same | ⟨missing, -⟩
      · exact follows.kept name time (same ▸ stored)
      · rw [missing] at stored
        cases stored
    dropped := fun name time renewed missing => by
      rcases drops name with same | ⟨-, lapsed⟩
      · exact follows.dropped name time renewed (same ▸ missing)
      · cases stored : held name with
        | none => exact follows.dropped name time renewed stored
        | some other =>
          have recorded := follows.kept name other stored
          rw [renewed, Option.some.injEq] at recorded
          exact recorded ▸ lapsed other stored }

theorem length_holders (follows : Follows lapsing now held book) {names : List Name}
    (nodup : names.Nodup)
    (lists : ∀ name, name ∈ names ↔ (held name).any (fun time => !lapsing.lapsed time now) = true) :
    (book.holders lapsing now).length = names.length := by
  refine ((List.perm_ext_iff_of_nodup (follows.once.filter _) nodup).mpr fun name => ?_).length_eq
  rw [lists, ← follows.inForce_eq le_rfl, List.mem_filter, and_iff_right_iff_imp]
  intro force
  obtain ⟨time, renewed, -⟩ := (Option.any_eq_true _ _).mp force
  exact follows.granted name time renewed

variable [DecidableEq Name]

theorem update (follows : Follows lapsing now held book) (name : Name) (latest : Option Time)
    {granted : List Name} (more : book.granted ⊆ granted) (once : granted.Nodup)
    (listed : latest ≠ none → name ∈ granted) :
    Follows lapsing now (Function.update held name latest)
      ⟨granted, Function.update book.renewed name latest⟩ where
  kept other time stored := by
    by_cases same : other = name
    · subst same
      simpa using stored
    · simp only [Function.update_of_ne same] at stored ⊢
      exact follows.kept other time stored
  dropped other time renewed missing := by
    by_cases same : other = name
    · subst same
      simp only [Function.update_self] at renewed missing
      rw [missing] at renewed
      cases renewed
    · simp only [Function.update_of_ne same] at renewed missing
      exact follows.dropped other time renewed missing
  granted other time renewed := by
    by_cases same : other = name
    · subst same
      apply listed
      simp only [Function.update_self] at renewed
      simp [renewed]
    · simp only [Function.update_of_ne same] at renewed
      exact more (follows.granted other time renewed)
  once := once

theorem renew (follows : Follows lapsing now held book) (known : name ∈ book.granted) :
    Follows lapsing now (Function.update held name (some now)) (book.renew name now) :=
  follows.update name (some now) (List.Subset.refl _) follows.once fun _ => known

theorem grant (follows : Follows lapsing now held book) (new : name ∉ book.granted) :
    Follows lapsing now (Function.update held name (some now)) (book.grant name now) :=
  follows.update name (some now) (List.subset_append_left _ _)
    (List.nodup_append_comm.mp (List.nodup_cons.mpr ⟨new, follows.once⟩)) (by simp)

theorem release (follows : Follows lapsing now held book) (name : Name) :
    Follows lapsing now (Function.update held name none) (book.release name) :=
  follows.update name none (List.Subset.refl _) follows.once (by simp)

end Follows

end Leases
