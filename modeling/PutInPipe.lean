import PutInPipe.Session.Flow
import PutInPipe.Session.Completion
import PutInPipe.Session.Status
import PutInPipe.Session.Orphans
import PutInPipe.Session.Membership
import PutInPipe.Session.Delivery
import PutInPipe.Session.Repeats
import PutInPipe.Session.Joining
import PutInPipe.Session.Effects
import PutInPipe.Buffer.Release
import PutInPipe.Buffer.Limits
import PutInPipe.Client.Connection
import PutInPipe.Client.Acks
import PutInPipe.Web.Upload
import PutInPipe.Web.Download
import PutInPipe.Server.Endings
import PutInPipe.Server.Requests
import PutInPipe.Concurrent.Greeting
import PutInPipe.Concurrent.Uploading
import PutInPipe.Web.Integrity
import PutInPipe.Concurrent.Owning
import PutInPipe.Concurrent.Ending
import PutInPipe.Concurrent.Closing
import PutInPipe.Web.Mirror
import PutInPipe.Session.Kicks
import PutInPipe.Client.Timing
import PutInPipe.Client.Naming
import PutInPipe.Captcha.Admission
import PutInPipe.Captcha.Payload
import PutInPipe.Session.Control
import PutInPipe.Server.Control
import PutInPipe.Server.Limits
import PutInPipe.Session.Metadata
import PutInPipe.Session.Removals
import PutInPipe.Session.Accounting
import PutInPipe.Session.FileName
import PutInPipe.Session.Publisher
import PutInPipe.Session.Rollback
import PutInPipe.Client.Envelope
import PutInPipe.Web.Chunking
import PutInPipe.Web.Disk
import PutInPipe.Web.Gaps
import PutInPipe.Captcha.Keys
import PutInPipe.Web.Link
import PutInPipe.Server.Reader
import PutInPipe.Web.Inbox
import PutInPipe.Socket.Delivery
import PutInPipe.Socket.Writing
import PutInPipe.Socket.Lifetime
import PutInPipe.Web.Reconnecting
import PutInPipe.Web.Members
