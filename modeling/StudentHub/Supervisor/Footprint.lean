import StudentHub.Supervisor.Daemon

/-!
# What processes perform

Most processes only read, or write files of some directories. Which ones is found by a
search for instances, so a kind of operations that includes these includes all that such
a process does.
-/

namespace StudentHub.Supervisor

open Ecma Concurrency Concurrency.Process JsString JsValue

-- Processes of many operations take a longer search.
set_option synthInstance.maxSize 2000

def Op.IsRead : Op → Prop
  | .durableCreate _ _ _ => False
  | .durableReplace _ _ _ => False
  | .spawnWorker _ _ _ _ => False
  | _ => True

class Reads (kind : Op → Prop) : Prop where
  reads : ∀ op : Op, op.IsRead → kind op

theorem handle_of_isRead {me : ℕ} {op : Op} (read : op.IsRead) (given : Given)
    (machine : Machine) : (handle me op given machine).2 = machine := by
  cases op with
  | durableCreate directory name value => exact absurd read id
  | durableReplace directory name value => exact absurd read id
  | spawnWorker order attemptId targetSha token => exact absurd read id
  | _ => rfl

instance : Reads Op.IsRead := ⟨fun _ => id⟩

class Creates (kind : Op → Prop) (directory : Directory) : Prop where
  creates : ∀ name value, kind (.durableCreate directory name value)

class Replaces (kind : Op → Prop) (directory : Directory) : Prop where
  replaces : ∀ name value, kind (.durableReplace directory name value)

class Spawns (kind : Op → Prop) : Prop where
  spawns : ∀ order attemptId targetSha token, kind (.spawnWorker order attemptId targetSha token)

def Unspent {Value : Type} (result : Except SupervisorError Value) : Prop :=
  result ≠ .error .fuelSpent

class Performing (kind : Op → Prop) {Value : Type} (process : Program Value) : Prop where
  performs : process.Performs kind Unspent

section Performing

variable {kind : Op → Prop} {Value Value' : Type} {process other : Program Value}

instance (value : Value) : Performing kind (pure value : Program Value) := ⟨.returned nofun⟩

instance (value : Value) : Performing kind (returned value : Program Value) := ⟨.returned nofun⟩

instance (message : JsString) : Performing kind (thrown (.assertion message) : Program Value) :=
  ⟨.thrown nofun⟩

instance (message : JsString) : Performing kind (thrown (.failure message) : Program Value) :=
  ⟨.thrown nofun⟩

theorem Performing.bind {rest : Value → Program Value'} (first : Performing kind process)
    (second : ∀ value, Performing kind (rest value)) : Performing kind (process >>= rest) :=
  ⟨first.performs.bind (fun value _ => (second value).performs)
    fun _ unspent same => unspent (by cases same; rfl)⟩

instance {rest : Value → Program Value'} [first : Performing kind process]
    [second : ∀ value, Performing kind (rest value)] : Performing kind (process >>= rest) :=
  first.bind second

instance {change : Value → Value'} [first : Performing kind process] :
    Performing kind (change <$> process) :=
  inferInstanceAs (Performing kind (process >>= fun value => pure (change value)))

instance [performing : Performing kind process] : Performing kind process.attempt :=
  ⟨performing.performs.attempt fun _ _ => nofun⟩

instance {condition : Prop} [Decidable condition] [left : Performing kind process]
    [right : Performing kind other] : Performing kind (if condition then process else other) := by
  split <;> assumption

instance {directory : Directory} {name : JsString} {value : JsValue}
    [creates : Creates kind directory] :
    Performing kind (call (.durableCreate directory name value)) :=
  ⟨.perform (creates.creates name value) fun _ => .returned nofun⟩

instance {directory : Directory} {name : JsString} {value : JsValue}
    [replaces : Replaces kind directory] :
    Performing kind (call (.durableReplace directory name value)) :=
  ⟨.perform (replaces.replaces name value) fun _ => .returned nofun⟩

instance {order : JsValue} {attemptId : JsString} {targetSha : JsValue} {token : JsString}
    [spawns : Spawns kind] :
    Performing kind (call (.spawnWorker order attemptId targetSha token)) :=
  ⟨.perform (spawns.spawns order attemptId targetSha token) fun _ => .returned nofun⟩

variable (host : SupervisorHost) (attemptId name now code : JsString) (order run : JsValue)
variable (directory : Directory)

variable [reads : Reads kind]

theorem performing_read {op : Op} (read : op.IsRead) : Performing kind (call op) :=
  ⟨.perform (reads.reads op read) fun _ => .returned nofun⟩

instance : Performing kind (call (.existsSync directory name)) := performing_read trivial

instance : Performing kind (call (.readFile directory name)) := performing_read trivial

instance : Performing kind (call (.readdirSync directory)) := performing_read trivial

instance : Performing kind (call .now) := performing_read trivial

instance : Performing kind (call .randomBytes) := performing_read trivial

instance : Performing kind (call (.probeProcess run)) := performing_read trivial

instance : Performing kind (call (.schedule attemptId)) := performing_read trivial

instance (condition : Bool) : Performing kind (check condition name) := by
  unfold check
  infer_instance

instance (stored : Option JsValue) : Performing kind (present stored) := by
  cases stored <;> (unfold present; infer_instance)

instance : Performing kind (readJson directory name) := by
  unfold readJson
  infer_instance

instance : Performing kind (upperCase run) := by
  cases run <;> (unfold upperCase; infer_instance)

instance : Performing kind (ofExcept (paths attemptId)) := by
  unfold paths
  split
  · exact inferInstanceAs (Performing kind (returned _))
  · exact inferInstanceAs (Performing kind (thrown _))

instance : Performing kind (readOf directory attemptId) := by
  unfold readOf
  infer_instance

instance : Performing kind (hasFile directory attemptId) := by
  unfold hasFile
  infer_instance

instance : Performing kind (readRun attemptId) := by
  unfold readRun
  infer_instance

instance [Replaces kind .runs] :
    Performing kind (writeRun attemptId run) := by
  unfold writeRun
  infer_instance

instance : Performing kind (readLaunch attemptId) := by
  unfold readLaunch
  infer_instance

instance : Performing kind (hasLaunch attemptId) := by
  unfold hasLaunch
  infer_instance

instance : Performing kind (hasCompletion attemptId) := by
  unfold hasCompletion
  infer_instance

instance : Performing kind (readCompletion attemptId) := by
  unfold readCompletion
  infer_instance

instance : Performing kind (readOrder attemptId) := by
  unfold readOrder
  infer_instance

instance : Performing kind (requireHoldCode run) := by
  unfold requireHoldCode
  infer_instance

instance : Performing kind (intentPath order) := by
  unfold intentPath
  infer_instance

instance [Creates kind .intents] :
    Performing kind (intend host order now code) := by
  unfold intend
  infer_instance

instance [Replaces kind .intents] :
    Performing kind (holdIntent order code) := by
  unfold holdIntent
  infer_instance

instance (names : List JsString) : Performing kind (readIntents names) := by
  induction names with
  | nil => unfold readIntents; infer_instance
  | cons name rest ih => unfold readIntents; infer_instance

instance : Performing kind pendingIntents := by
  unfold pendingIntents
  infer_instance

instance (launch : Option JsValue) : Performing kind (reportLaunch order run launch) := by
  cases launch <;> (unfold reportLaunch; infer_instance)

instance : Performing kind (reportIntent order) := by
  unfold reportIntent
  infer_instance

instance : Performing kind (validatedCompletion host attemptId) := by
  unfold validatedCompletion
  infer_instance

instance : Performing kind (runEnded attemptId run) := by
  unfold runEnded
  infer_instance

instance : Performing kind (ownerFinished host attemptId) := by
  unfold ownerFinished
  infer_instance

instance [Replaces kind .intents] :
    Performing kind (examineOwner host order attemptId) := by
  unfold examineOwner
  infer_instance

instance [Creates kind .completions] :
    Performing kind (recordCompletion host run) := by
  unfold recordCompletion
  repeat' (first | infer_instance | refine Performing.bind inferInstance fun _ => ?_ | split)

instance : Performing kind attempts := by
  unfold attempts
  infer_instance

instance [Creates kind .runs] :
    Performing kind (repairAccepted attemptId now) := by
  unfold repairAccepted
  infer_instance

instance : Performing kind (awaitsLaunch attemptId) := by
  unfold awaitsLaunch
  infer_instance

instance [Replaces kind .runs] :
    Performing kind (spawnFailed attemptId run) := by
  unfold spawnFailed
  infer_instance

instance [Creates kind .launches] : Performing kind (claimLaunch attemptId run) := by
  unfold claimLaunch
  infer_instance

instance [Replaces kind .launches] : Performing kind (markLaunch attemptId run) := by
  unfold markLaunch
  infer_instance

instance [Spawns kind] : Performing kind (startWorker attemptId name) := by
  unfold startWorker
  repeat' (first | infer_instance | refine Performing.bind inferInstance fun _ => ?_ | split)

instance [Replaces kind .runs] [Replaces kind .launches] (child : Child) :
    Performing kind (workerStarted attemptId run child) := by
  unfold workerStarted
  infer_instance

instance [Spawns kind] [Replaces kind .runs] [Replaces kind .launches] :
    Performing kind (launchClaimed host attemptId run) := by
  unfold launchClaimed
  repeat' (first | infer_instance | refine Performing.bind inferInstance fun _ => ?_ | split)

instance [Spawns kind] [Replaces kind .runs] [Creates kind .launches] [Replaces kind .launches] :
    Performing kind (launch host attemptId) := by
  unfold launch
  infer_instance

instance (ending : Ending) [Creates kind .completions] :
    Performing kind (completionRecorded host attemptId ending run) := by
  unfold completionRecorded
  infer_instance

instance (ending : Ending) (bytes : ℕ) [Creates kind .completions] [Replaces kind .runs] :
    Performing kind (finish host attemptId name ending bytes) := by
  unfold finish
  infer_instance

instance [Replaces kind .runs] :
    Performing kind (heartbeat host attemptId now) := by
  unfold heartbeat
  infer_instance

instance [Replaces kind .runs] :
    Performing kind (shutdownChild attemptId) := by
  unfold shutdownChild
  infer_instance

instance : Performing kind (announce order) := by
  unfold announce
  infer_instance

instance : Performing kind (scheduleAccepted order run) := by
  unfold scheduleAccepted
  infer_instance

instance : Performing kind (refusedIntent order) := by
  unfold refusedIntent
  infer_instance

instance : Performing kind (refusedWithoutRecord order) := by
  unfold refusedWithoutRecord
  repeat' (first | infer_instance | refine Performing.bind inferInstance fun _ => ?_ | split)

instance (terminal : Option JsValue) : Performing kind (stageOf run terminal) := by
  unfold stageOf
  infer_instance

instance (terminal : Option JsValue) : Performing kind (answerStage order run terminal now) := by
  unfold answerStage
  infer_instance

instance : Performing kind (statusOfOrder host order) := by
  unfold statusOfOrder
  repeat' (first | infer_instance | refine Performing.bind inferInstance fun _ => ?_ | split)

instance : Performing kind (status host order) := by
  unfold status
  repeat' (first | infer_instance | refine Performing.bind inferInstance fun _ => ?_ | split)

instance [Replaces kind .runs] :
    Performing kind (recoverCompleted host attemptId run) := by
  unfold recoverCompleted
  repeat' (first | infer_instance | refine Performing.bind inferInstance fun _ => ?_ | split)

instance [Creates kind .intents] [Replaces kind .intents] [Replaces kind .runs] :
    Performing kind (recoverAccepted host attemptId run) := by
  unfold recoverAccepted
  infer_instance

instance [Replaces kind .runs] :
    Performing kind (recoverRunning attemptId run) := by
  unfold recoverRunning
  infer_instance

instance [Creates kind .intents] [Replaces kind .intents] [Creates kind .runs]
    [Replaces kind .runs] :
    Performing kind (recoverAttempt host attemptId) := by
  unfold recoverAttempt
  infer_instance

instance (attemptIds : List JsString) [Creates kind .intents] [Replaces kind .intents]
    [Creates kind .runs] [Replaces kind .runs] :
    Performing kind (recoverAttempts host attemptIds) := by
  induction attemptIds with
  | nil => unfold recoverAttempts; infer_instance
  | cons attemptId rest ih => unfold recoverAttempts; infer_instance

end Performing

end StudentHub.Supervisor
