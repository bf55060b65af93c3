import Muster.Proofs.Census.Counting

/-!
# Proofs/Census/Operation — what can be asked of a census

One caller makes calls on a census, one after the other (`Census.performAll`). Each of them is an
`Operation`, and what it answers is a `Reply`.
-/

namespace Muster

namespace Census

/-- **What a caller supplies for a new key**: a record to retain, and what is said when it is asked
for. -/
structure Deposit where
  record : Record
  said : List Notice := []

/-- **What a caller asks of a census.** -/
inductive Operation
  | increment (k : Key) (deposit : Option Deposit)
  | countOf (k : Key)
  | retained (k : Key)
  | prune (threshold : Nat)
  | size
  | processed
  | trySeal
  | seals
  | isSealed
  | remaining
  | take
  | clear

/-- **What a census answers.** -/
inductive Reply
  | flag (b : Bool)
  | number (n : Nat)
  | numberIf (n : Option Nat)
  | record (r : Option Record)
  | taken (t : Taken Key)
  | cleared

/-- What is supplied for a new key, as a payload. -/
def Payload.ofDeposit : Option Deposit → Payload
  | none => .nothing
  | some d => .telling (.ok (some d.record)) d.said

/-- What is said when something is asked for that may not have been supplied. -/
def Deposit.saidBy (deposit : Option Deposit) : List Notice := (deposit.map Deposit.said).getD []

theorem Payload.ofDeposit_eq (deposit : Option Deposit) : Payload.ofDeposit deposit =
    .telling (.ok (deposit.map Deposit.record)) (Deposit.saidBy deposit) := by
  cases deposit <;> rfl

/-- **A call.** -/
def perform : Operation → Call Census Reply
  | .increment k deposit => .flag <$> count k (.ofDeposit deposit)
  | .countOf k => .numberIf <$> Census.countOf k
  | .retained k => .record <$> Census.retained k
  | .prune threshold => .number <$> Census.prune threshold
  | .size => .number <$> Call.gets Census.size
  | .processed => .number <$> Call.gets Census.processed
  | .trySeal => .flag <$> Census.trySeal
  | .seals => .number <$> Call.gets Census.seals
  | .isSealed => .flag <$> Call.gets Census.sealed
  | .remaining => .numberIf <$> Call.gets Census.remaining
  | .take => .taken <$> Census.take
  | .clear => (fun _ => .cleared) <$> Census.clear

/-- **One call after the other.** -/
def performAll : List Operation → Call Census (List Reply)
  | [] => return []
  | op :: ops => do
    let reply ← perform op
    let replies ← performAll ops
    return reply :: replies

/-- **An increment**, from what it is given. -/
theorem run_perform_increment {c : Census} (hc : c.Sound) (hh : c.Healthy) (k : Key)
    (deposit : Option Deposit) :
    (perform (.increment k deposit)).run c =
      if c.sealed then ⟨.ok (.flag false), c.refused, []⟩
      else ⟨.ok (.flag (c.find? k).isNone), (c.grown k (deposit.map Deposit.record)).checked,
        (if (c.find? k).isNone then Deposit.saidBy deposit else []) ++
          (c.grown k (deposit.map Deposit.record)).warnings⟩ := by
  rw [perform, Payload.ofDeposit_eq, Call.run_map, run_count_telling hc hh]
  split <;> rfl

/-- The calls of a sequence answer if the first one does and the others do after it. -/
theorem run_performAll_cons {c d e : Census} {op : Operation} {ops : List Operation} {reply : Reply}
    {replies : List Reply} {ns ns' : List Notice} (h : (perform op).run c = ⟨.ok reply, d, ns⟩)
    (hs : (performAll ops).run d = ⟨.ok replies, e, ns'⟩) :
    (performAll (op :: ops)).run c = ⟨.ok (reply :: replies), e, ns ++ ns'⟩ := by
  rw [performAll, Call.run_bind_ok h, Call.run_bind_ok hs]
  simp

namespace Reply

/-- **Two replies that agree**, except for which key was taken. -/
def Alike : Reply → Reply → Prop
  | .taken (.item _), .taken (.item _) => True
  | r, r' => r = r'

/-- The keys that have been handed out since the census was last cleared, after another reply. -/
def handing (ks : List Key) : Reply → List Key
  | .taken (.item k) => ks ++ [k]
  | .cleared => []
  | _ => ks

end Reply

/-- **The keys that some replies have handed out** since the census was last cleared. -/
def handedOver (replies : List Reply) : List Key := replies.foldl Reply.handing []

end Census

end Muster
