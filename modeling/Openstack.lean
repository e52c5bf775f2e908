import Openstack.DynamoDb.AcknowledgedWrites
import Openstack.S3.PathConfinement
import Openstack.S3.VersionRetention
import Openstack.Sqs.FifoOrder
import Openstack.Sqs.MessageIdentity
import Openstack.Framework.Stopping
import Openstack.Kinesis.Reading
import Openstack.EventBridge.Buses
import Openstack.Gateway.QueryTransport
import Openstack.SecretsManager.DerivedState
import Openstack.SecretsManager.VersionStages
import Openstack.Kms.PendingDeletion
import Openstack.Kms.Aliases
import Openstack.StepFunctions.Finality
import Openstack.Lambda.ContainerLeaks
import Openstack.Lambda.CurrentCode
import Openstack.S3.WriteRaces
import Openstack.Iam.GroupMembership
import Openstack.ApiGateway.ResourceTree
import Openstack.CloudWatch.LogHistory
import Openstack.DynamoDb.RangeQueries
import Openstack.DynamoDb.UpdateFrame
import Openstack.Studio.SchemaAgreement
import Openstack.Sqs.ReceiveSelection
import Openstack.Sqs.BatchSend
import Openstack.DynamoDb.ShardIterators
import Openstack.DynamoDb.WireRoundTrip
import Openstack.DynamoDb.ListTables
import Openstack.DynamoDb.Projection
import Openstack.DynamoDb.NumberAddition
import Openstack.DynamoDb.SliceSafety
import Openstack.Sqs.Deduplication
import Openstack.Sns.PublishBatch
import Openstack.Sns.FilterPolicies
import Openstack.S3.PagedExactness
import Openstack.Framework.FormEncoding
import Openstack.S3.MultipartReading
import Openstack.S3.PortablePaths
import Openstack.S3.NotificationRoundTrip
import Openstack.Kinesis.Resharding
import Openstack.EventBridge.PatternMeaning
import Openstack.Lambda.PathAddressing
import Openstack.Gateway.VirtualHosts
import Openstack.Ecr.ImageIds
import Openstack.CloudWatch.MetricListing
import Openstack.CloudWatch.MetricForms
import Openstack.Lambda.CodeExtraction
import Openstack.CloudFormation.Intrinsics
import Openstack.Framework.SpooledBody
import Openstack.Studio.TransactionLog
import Openstack.Ssm.ParameterPaths
import Openstack.Route53.ChangeBatches
import Openstack.Gateway.XmlInjection
import Openstack.Studio.XmlCaptures
import Openstack.Studio.Interpolation
