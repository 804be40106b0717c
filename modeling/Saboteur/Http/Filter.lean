import Saboteur.Http.Rejection

/-!
# Filters

A filter answers a request or refuses it. Of filters side by side the first that answers counts. If
all refuse, their causes are kept together, and the reply is made for the most telling one.

That a path leads elsewhere is no cause. So nothing is reported as not found as long as any filter
has a cause of its own.
-/

namespace Saboteur.Http

/-! ## Refusals -/

/-- The causes for which filters refused a request, in the order in which they were met. -/
structure Refusal where
  causes : List Rejection

namespace Refusal

/-- The refusal of one filter. -/
def of : Rejection → Refusal
  | .notFound => ⟨[]⟩
  | cause => ⟨[cause]⟩

/-- The refusal of two filters side by side. -/
def combine (a b : Refusal) : Refusal := ⟨a.causes ++ b.causes⟩

/-- The kinds of causes that have a reply of their own, the most telling first. -/
def kinds : List (Rejection → Bool) :=
  [(· matches .unknownResource _), (· matches .unreadableBody _), (· matches .badRequest _),
    (· matches .nodeFailure _), (· matches .serverError _), (· matches .methodNotAllowed)]

/-- What a refusal is reported as. -/
def report (r : Refusal) : Rejection :=
  if r.causes.isEmpty then .notFound
  else (kinds.findSome? fun kind => r.causes.find? kind).getD .unhandled

end Refusal

/-! ## Filters -/

/-- A filter. Its work may change a state, also when it refuses. -/
abbrev Filter (σ α : Type) := σ → Except Refusal α × σ

namespace Filter

variable {σ α : Type}

/-- The filter that refuses everything. -/
def refuse (cause : Rejection) : Filter σ α := fun s => (.error (.of cause), s)

/-- A task that answers or refuses for one cause. -/
def ofTask (task : σ → Except Rejection α × σ) : Filter σ α := fun s =>
  let (result, s) := task s
  (result.mapError .of, s)

/-- Two filters side by side. -/
def or (f g : Filter σ α) : Filter σ α := fun s =>
  match f s with
  | (.ok a, s) => (.ok a, s)
  | (.error e, s) =>
    let (result, s) := g s
    (result.mapError e.combine, s)

/-- Many filters side by side. -/
def oneOf (fs : List (Filter σ α)) : Filter σ α := fs.foldr or (refuse .notFound)

/-- A filter with a reply for what it refuses. -/
def recover (f : Filter σ α) (reply : Rejection → α) : σ → α × σ := fun s =>
  match f s with
  | (.ok a, s) => (a, s)
  | (.error e, s) => (reply e.report, s)

end Filter

end Saboteur.Http
