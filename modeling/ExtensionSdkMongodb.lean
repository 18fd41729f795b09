import ExtensionSdkMongodb.Library.Machine
import ExtensionSdkMongodb.Library.Ownership
import ExtensionSdkMongodb.Library.Failover
import ExtensionSdkMongodb.Library.Unwinding
import ExtensionSdkMongodb.Library.Url
import ExtensionSdkMongodb.Data.Bson
import ExtensionSdkMongodb.Data.Json
import ExtensionSdkMongodb.Data.Text
import ExtensionSdkMongodb.Data.Utf8
import ExtensionSdkMongodb.Aggregation.Expression
import ExtensionSdkMongodb.Sdk.Error
import ExtensionSdkMongodb.Sdk.ByteContainer
import ExtensionSdkMongodb.Sdk.StatusObjects
import ExtensionSdkMongodb.Sdk.StageContext
import ExtensionSdkMongodb.Sdk.StageProperties
import ExtensionSdkMongodb.Sdk.Upstream
import ExtensionSdkMongodb.Sdk.CallLedger
import ExtensionSdkMongodb.Sdk.Expansion
import ExtensionSdkMongodb.Sdk.Nodes
import ExtensionSdkMongodb.Sdk.ExpandedArray
import ExtensionSdkMongodb.Sdk.ParseExpand
import ExtensionSdkMongodb.Sdk.Boundary
import ExtensionSdkMongodb.Sdk.OperationMetrics
import ExtensionSdkMongodb.Sdk.HostCalls
import ExtensionSdkMongodb.Sdk.ExtensionLog
import ExtensionSdkMongodb.DistributedPlan.Model
import ExtensionSdkMongodb.DistributedPlan.Ownership
import ExtensionSdkMongodb.DistributedPlan.Building
import ExtensionSdkMongodb.SourceStage.Exec
import ExtensionSdkMongodb.SourceStage.Route
import ExtensionSdkMongodb.SourceStage.Generator
import ExtensionSdkMongodb.SourceStage.Refinement
import ExtensionSdkMongodb.SourceStage.Lifecycle
import ExtensionSdkMongodb.SourceStage.Buffers
import ExtensionSdkMongodb.SourceStage.Determinism
import ExtensionSdkMongodb.SourceStage.Nodes
import ExtensionSdkMongodb.SourceStage.Planning
import ExtensionSdkMongodb.SourceStage.Entries
import ExtensionSdkMongodb.SourceStage.Extension
import ExtensionSdkMongodb.SourceStage.Export
import ExtensionSdkMongodb.SourceStage.Cursors
import ExtensionSdkMongodb.MapTransform.Exec
import ExtensionSdkMongodb.MapTransform.Runs
import ExtensionSdkMongodb.MapTransform.Buffers
import ExtensionSdkMongodb.MapTransform.Nodes
import ExtensionSdkMongodb.MapTransform.Entries
import ExtensionSdkMongodb.Passthrough
import ExtensionSdkMongodb.Stages.Parsing
import ExtensionSdkMongodb.Stages.Expanding
import ExtensionSdkMongodb.Stages.Serializing
import ExtensionSdkMongodb.Stages.Results
import ExtensionSdkMongodb.Stages.Reopening
import ExtensionSdkMongodb.OpenSearch.Filter
import ExtensionSdkMongodb.OpenSearch.FilterGrammar
import ExtensionSdkMongodb.OpenSearch.Args
import ExtensionSdkMongodb.OpenSearch.Config
import ExtensionSdkMongodb.OpenSearch.ConfigForms
import ExtensionSdkMongodb.OpenSearch.Deadline
import ExtensionSdkMongodb.OpenSearch.VectorSearch
import ExtensionSdkMongodb.OpenSearch.Response
import ExtensionSdkMongodb.OpenSearch.Fetch
import ExtensionSdkMongodb.OpenSearch.FetchContract
import ExtensionSdkMongodb.OpenSearch.Lookup
import ExtensionSdkMongodb.OpenSearch.Rows
import ExtensionSdkMongodb.OpenSearch.Attempts
import ExtensionSdkMongodb.OpenSearch.Hits
import ExtensionSdkMongodb.OpenSearch.SearchUrl
import ExtensionSdkMongodb.OpenSearch.Transport
import ExtensionSdkMongodb.Examples.Fibonacci
import ExtensionSdkMongodb.Examples.LocalJsonl.Lines
import ExtensionSdkMongodb.Examples.LocalJsonl.Options
import ExtensionSdkMongodb.Examples.LocalJsonl.Paths
import ExtensionSdkMongodb.SourceStage.Scripts
import ExtensionSdkMongodb.Examples.LocalJsonl.Stage
import ExtensionSdkMongodb.Examples.LocalJsonl.Metrics
import ExtensionSdkMongodb.Library.Feeding
import ExtensionSdkMongodb.OpenSearch.Stages
import ExtensionSdkMongodb.Aggregation.Pipeline
import ExtensionSdkMongodb.OpenSearch.Results
import ExtensionSdkMongodb.Examples.RustSdkE2e
import ExtensionSdkMongodb.MapTransform.Export
import ExtensionSdkMongodb.Pipelines.Typed
