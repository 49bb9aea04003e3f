import AiAgent.Gateway.Operations

/-!
# The parser worker's part of a parse job

`LLMWorker._process_parser_job`: a parse root is claimed, its files are turned into a prepared
chat job, and that job is enqueued as the root's child. What happens outside Redis – extracting
the text of the files, deleting the raw ones, writing the metadata file – takes part through its
outcome only (`AiAgent.Worker.Preparation`, and `cleanup` below), which is an argument here.
-/

namespace AiAgent

namespace Worker

open Gateway

/-- The worker process: its id and the settings it reads. -/
structure ParserWorker where
  /-- `worker_id`. -/
  workerId : WorkerId
  /-- `is_parser_pool`. -/
  isParserPool : Bool
  /-- `ENABLE_PARSER_STAGE`. -/
  enableParserStage : Bool

/-- How `prepare_parser_job_artifacts` and the metadata write after it end. -/
inductive Preparation where
  /-- `TimeoutError`. -/
  | timedOut
  /-- Another exception, with its text. -/
  | failed (message : Text)
  /-- The prepared child job. -/
  | ready (job : PreparedLlmJob)

/-- `str(exc) or 'unknown error'` behind a heading. -/
def errorText (heading : String) (message : Text) : Text :=
  heading.toList ++ if message = [] then "unknown error".toList else message

/-- The metadata a root carries once its child is enqueued. -/
def childEnqueuedMetadata (childJobId : JobId) (rawDeleted : Bool) : ParserMetadata where
  phase := some .childEnqueued
  childJobId := some childJobId
  rawDeleted := some rawDeleted

/-- The record `_process_parser_job` saves once the artifacts are prepared. It is built from the
record read before the preparation. -/
def preparedRecord (currentJob : Job) : Job :=
  { currentJob with
    parserMetadata := some
      { phase := some .parserPrepared
        childJobId := currentJob.parserMetadata.bind ParserMetadata.childJobId
        rawDeleted := some false }
    lifecycleStage := some .parserPrepared }

/-- `_process_parser_job` from the prepared artifacts on. -/
def enqueueAndWait (cfg : Settings) (worker : ParserWorker) (jobId : JobId)
    (prepared : PreparedLlmJob) (cleanup : Except Text Bool) : Gw Unit := do
  if (← getJob jobId).any fun latestJob => latestJob.status.isTerminal then return ()
  else if ← isCancelRequested jobId then markJobCancelled jobId (some worker.workerId)
  else
    match ← enqueueChildJobOnce cfg jobId prepared with
    | .error .childEnqueueCancelled =>
      if (← getJob jobId).any fun latestJob => latestJob.status.isTerminal then return ()
      else markJobCancelled jobId (some worker.workerId)
    | .error e =>
      markJobFailed jobId (errorText "Parser child enqueue failed: " e.message.toList)
        (some worker.workerId)
    | .ok (childJobId, _) =>
      match cleanup with
      | .error message =>
        markJobFailed jobId (errorText "Parser child enqueue failed: " message)
          (some worker.workerId)
      | .ok rawDeleted =>
        markJobWaitingOnChild jobId childJobId .childEnqueued
          (childEnqueuedMetadata childJobId rawDeleted) (some worker.workerId)

/-- `_process_parser_job` once the root's record was read: the child it is linked to already, or
the preparation of one. -/
def parseAndEnqueue (cfg : Settings) (worker : ParserWorker) (job currentJob : Job)
    (preparation : Preparation) (cleanup : Except Text Bool) : Gw Unit := do
  match ← getLinkedChildJobId cfg job.id with
  | .error _ => return ()
  | .ok existingChildJobId =>
    match currentJob.stagingId.or job.stagingId with
    | none =>
      markJobFailed job.id "Parser job is missing staging_id".toList (some worker.workerId)
    | some stagingId =>
      match existingChildJobId with
      | some childJobId =>
        match cleanup with
        | .error _ => return ()
        | .ok rawDeleted =>
          markJobWaitingOnChild job.id childJobId .childEnqueued
            (childEnqueuedMetadata childJobId rawDeleted) (some worker.workerId)
      | none =>
        match preparation with
        | .timedOut =>
          markJobFailed job.id "Parser artifact preparation timed out".toList
            (some worker.workerId)
        | .failed message =>
          markJobFailed job.id (errorText "Parser artifact preparation failed: " message)
            (some worker.workerId)
        | .ready prepared =>
          saveJob (preparedRecord currentJob)
          enqueueAndWait cfg worker job.id
            { prepared with stagingId := some stagingId, threadId := some currentJob.threadId }
            cleanup

/-- `_process_parser_job`. -/
def processParserJob (cfg : Settings) (worker : ParserWorker) (job : Job)
    (preparation : Preparation) (cleanup : Except Text Bool) : Gw Unit := do
  if ← isCancelRequested job.id then markJobCancelled job.id (some worker.workerId)
  else if worker.isParserPool = false then
    markJobFailed job.id "Parser jobs must run on the parser worker pool".toList
      (some worker.workerId)
  else if worker.enableParserStage = false then
    markJobFailed job.id "Parser stage is disabled".toList (some worker.workerId)
  else
    let currentJob := (← getJob job.id).getD job
    parseAndEnqueue cfg worker job currentJob preparation cleanup

end Worker

end AiAgent
