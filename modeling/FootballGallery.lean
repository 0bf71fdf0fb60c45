import FootballGallery.ForumSteps
import FootballGallery.CommentWriters
import FootballGallery.Creation
import FootballGallery.Flows
import FootballGallery.Comments
import FootballGallery.CommentReactions
import FootballGallery.PostReactions
import FootballGallery.SignedIn
import FootballGallery.OwnPost
import FootballGallery.Lib.Views
import FootballGallery.PostReaders
import FootballGallery.CommentCopies
import FootballGallery.ReplyTarget
import FootballGallery.Threads
import FootballGallery.Lib.Buckets
import FootballGallery.CoreForum
import FootballGallery.ForumList
import FootballGallery.ForumLoad
import FootballGallery.Operations
import FootballGallery.ReplyBanner
import FootballGallery.ProfileEditActivity
import FootballGallery.AuthSignUpEmail
import FootballGallery.ProfileSave
import FootballGallery.Lib.Claims
import FootballGallery.AccountPages
import FootballGallery.Usernames
import FootballGallery.Verified
import FootballGallery.StoredComments
import FootballGallery.IdDates
import FootballGallery.ForumDetailCommentFragment
import FootballGallery.Lib.Words
import FootballGallery.Summaries
import FootballGallery.Ages
import FootballGallery.Lib.Tokens
import FootballGallery.Markup
import FootballGallery.APIUtil
import FootballGallery.Feeds
import FootballGallery.Lib.Gaps
import FootballGallery.LeagueTabs
import FootballGallery.Emblems
import FootballGallery.EmblemRuns
import FootballGallery.Ios.Article
import FootballGallery.Lib.Carry
import FootballGallery.Ios.ConvertJson
import FootballGallery.FilterDialog
import FootballGallery.Lib.Registry
import FootballGallery.LifeCycles
import FootballGallery.Lib.Recycling
import FootballGallery.Rows
import FootballGallery.CommentRows
import FootballGallery.Discussion
import FootballGallery.Lib.Waiting
import FootballGallery.PostLists
import FootballGallery.Lib.Runs
import FootballGallery.AllTabs
import FootballGallery.TabRuns
import FootballGallery.TabLists
import FootballGallery.TabForum
import FootballGallery.TabSafety
import FootballGallery.HalfMade
import FootballGallery.AuthHome
import FootballGallery.Sessions
import FootballGallery.SessionRuns
import FootballGallery.Logins
import FootballGallery.FoundUsers
