import LiChat.General.Runs
import LiChat.General.Documents
import LiChat.General.QueryWrite
import LiChat.General.Rows
import LiChat.DateFormat
import LiChat.Constants
import LiChat.User
import LiChat.Recent
import LiChat.ChatSend
import LiChat.ChatLoading
import LiChat.MessageDates
import LiChat.ChatPaging
import LiChat.RecentOperations
import LiChat.RecentMembers
import LiChat.OpenedChats
import LiChat.RecentCreation
import LiChat.RecentCompletion
import LiChat.General.PairIds
import LiChat.PrivateRooms
import LiChat.General.Counters
import LiChat.RecentCounters
import LiChat.Clients
import LiChat.Session
import LiChat.SignedIn
import LiChat.General.WriteBack
import LiChat.Blocking
import LiChat.RecentUnread
import LiChat.General.Toggle
import LiChat.GroupInvitations
import LiChat.InvitedMutes
import LiChat.UserSections
import LiChat.GroupCreation
import LiChat.ChatList
import LiChat.ChatDeletion
import LiChat.UserFilters
import LiChat.UserTables
import LiChat.ContactReloads
import LiChat.PhoneContacts
import LiChat.PrivatePartners
import LiChat.InvitedRecents
import LiChat.RecentVisibility
import LiChat.ProfileUpdates
import LiChat.BlockedUsers
import LiChat.BlockOutcomes
import LiChat.General.Histories
import LiChat.MutedMembers
import LiChat.MediaCache
import LiChat.IncomingMessages
import LiChat.ShownMessages
import LiChat.PagingHistory
import LiChat.ChatMirror
import LiChat.ShownRows
import LiChat.General.FanIn
import LiChat.UserDownloads
import LiChat.PushNotifications
import LiChat.PictureGallery
import LiChat.General.Base64
import LiChat.MessageFormat
import LiChat.General.Marking
import LiChat.ReadReceipts
import LiChat.TypingIndicator
import LiChat.NationalNumbers
import LiChat.StoredProfiles
import LiChat.General.Weeks
import LiChat.TimeElapsed
import LiChat.UserTaps
import LiChat.ReadDates
import LiChat.General.Streaming
import LiChat.RNCryptorV3
import LiChat.EncryptedMessages
import LiChat.General.WriteQueues
import LiChat.MessageCopies
import LiChat.ChatRows
import LiChat.GroupNames
import LiChat.ChatAvatars
import LiChat.Conversations
import LiChat.StatusLabels
import LiChat.Composer
import LiChat.ImageDownloads
import LiChat.LiveRuns
import LiChat.ReceiptRaces
