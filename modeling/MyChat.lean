import MyChat.Reassembly
import MyChat.Malformed
import MyChat.Acks
import MyChat.SessionState
import MyChat.SingleLogin
import MyChat.Mailbox
import MyChat.Link
import MyChat.Cluster
import MyChat.SqlStatements
import MyChat.Authentication
import MyChat.Closing
import MyChat.Agreement
import MyChat.Forwarding
import MyChat.Handshake
import MyChat.Reported
import MyChat.GroupCreation
import MyChat.Headers
import MyChat.RoundTrip
import MyChat.RetryTable
import MyChat.Atomicity
import MyChat.SqlBuffers
import MyChat.Friendship
import MyChat.ChatHistory
import MyChat.TwoWriters
import MyChat.CommandLines
import MyChat.TaskQueue
import MyChat.Addressees
import MyChat.Restarts
import MyChat.Screen
import MyChat.Interleavings
import MyChat.Deadlines
import MyChat.RedisClient
import MyChat.Accounts
