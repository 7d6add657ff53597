import CppBlog.CommentCount
import CppBlog.Configuration
import CppBlog.Signatures
import CppBlog.Resubmission
import CppBlog.RequestData
import CppBlog.StaticPages
import CppBlog.CategoryNumbers
import CppBlog.CachedLocale
import CppBlog.CachedSidebar
import CppBlog.Logins
import CppBlog.Accounts
import CppBlog.Captchas
import CppBlog.Ranges
import CppBlog.Assembly
import CppBlog.CrossSite
import CppBlog.Authors
import CppBlog.Search
import CppBlog.Upgrade
import CppBlog.Listed
import CppBlog.Store.Slashes
import CppBlog.SameFile
import CppBlog.Overwriting
import CppBlog.Confinement
import CppBlog.Web.UrlMapper
import CppBlog.Links
import CppBlog.Store.Relational
import CppBlog.Migration
import CppBlog.Text.Replacing
import CppBlog.Text.Latex
import CppBlog.Text.Html
import CppBlog.Web.Pager
import CppBlog.Web.Header
import CppBlog.Store.Stream
import CppBlog.Store.Walk
import CppBlog.ReadLoops
import CppBlog.Directories
import CppBlog.OutOfRange
import CppBlog.Angles
import CppBlog.Headers
import CppBlog.CommentTexts
import CppBlog.PagerMarkup
import CppBlog.Cppcms.CacheCalls
import CppBlog.Cppcms.PrintedForms
import CppBlog.CachedListings
import CppBlog.CachedPosts
import CppBlog.Interleaved
import CppBlog.Cppcms.SessionTrust
