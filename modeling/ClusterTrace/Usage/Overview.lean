import ClusterTrace.Usage.Account

/-!
# The resources of a cluster at a glance

The means of the two ratios over the resources of an account, and the resources with the highest and
the lowest good use. Of several with the same ratio the first one counts.
-/

namespace ClusterTrace

/-- The account of a cluster in few numbers. -/
structure UsageOverview (α : Type) where
  resourceCount : Nat
  /-- The mean of the good use. -/
  meanEffective : α
  /-- The mean of all use. -/
  meanTotal : α
  /-- The resource with the highest good use. -/
  best : String
  /-- The resource with the lowest good use. -/
  worst : String
deriving DecidableEq

variable {α : Type} [Scalar α]

/-- The two extremes so far, after one more resource. Only a strictly better one takes the place. -/
def updateExtremes (extremes : (String × α) × (String × α)) (entry : String × α) :
    (String × α) × (String × α) :=
  let (best, worst) := extremes
  (if Scalar.less best.2 entry.2 then entry else best,
   if Scalar.less entry.2 worst.2 then entry else worst)

/-- The account of a cluster at a glance, if it has any resource. -/
def ClusterUsage.overview? (u : ClusterUsage α) : Option (UsageOverview α) :=
  let ratios := u.resources.entries.map fun (name, r) => (name, r.effective)
  match ratios with
  | [] => none
  | first :: _ =>
    let count : α := Scalar.ofNat ratios.length
    let (best, worst) := ratios.foldl updateExtremes (first, first)
    some
      { resourceCount := ratios.length
        meanEffective := Scalar.sum (u.resources.values.map ResourceUsage.effective) / count
        meanTotal := Scalar.sum (u.resources.values.map ResourceUsage.total) / count
        best := best.1
        worst := worst.1 }

end ClusterTrace
