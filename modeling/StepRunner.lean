import StepRunner.Http.Api
import StepRunner.Main
import StepRunner.Proofs.Supervisor.Aggregate
import StepRunner.Proofs.Supervisor.Requests
import StepRunner.Proofs.Supervisor.Registration
import StepRunner.Proofs.Supervisor.Retirement
import StepRunner.Proofs.Supervisor.Streams
import StepRunner.Proofs.Case.Strategy
import StepRunner.Proofs.Broadcast.Delivery
import StepRunner.Proofs.Files.Room
import StepRunner.Proofs.Store.Agreement
import StepRunner.Proofs.Browser.Exchange
import StepRunner.Proofs.Step.Execution
import StepRunner.Proofs.Step.Search
import StepRunner.Proofs.Step.Faults
import StepRunner.Proofs.Step.Navigation
import StepRunner.Proofs.Text.Base64
import StepRunner.Proofs.Case.Course
import StepRunner.Proofs.Case.Session
import StepRunner.Proofs.Case.Screenshot
import StepRunner.Proofs.Case.Verdict
import StepRunner.Proofs.Case.Containment
import StepRunner.Proofs.Case.Release
import StepRunner.Proofs.Step.Reading
import StepRunner.Proofs.EventStream
import StepRunner.Proofs.Supervisor.Performance
import StepRunner.Proofs.Suite.RoundTrip
import StepRunner.Proofs.Supervisor.Healthy
import StepRunner.Proofs.Http.Endpoints
import StepRunner.Proofs.Http.Snapshot
import StepRunner.Proofs.CommandLine.Command
import StepRunner.Proofs.Report.Rows
import StepRunner.Proofs.Report.Evidence
import StepRunner.Proofs.Report.Accounting
import StepRunner.Proofs.Report.Table
import StepRunner.Proofs.Step.Domain
import StepRunner.Proofs.Step.Entry
import StepRunner.Proofs.Url.Site
import StepRunner.Proofs.Step.Inflection
import StepRunner.Proofs.Step.Pointing
import StepRunner.Proofs.Step.Locating
import StepRunner.Proofs.Locator.Literal
import StepRunner.Proofs.Step.Verbatim
import StepRunner.Proofs.Store.Honoured
import StepRunner.Proofs.Suite.Acceptance
import StepRunner.Proofs.Selection
import StepRunner.Proofs.Broadcast.Registry
import StepRunner.Proofs.Step.Waiting
import StepRunner.Proofs.Duration
